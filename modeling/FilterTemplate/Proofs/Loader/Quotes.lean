/-
  FilterTemplate.Proofs.Loader.Quotes

  Strings given in quotes. Behind the first equals sign a text in single quotes
  is a string to the last character, whatever is in it: quotes, equals signs,
  blanks, the text of a number. So every string can be given to a key, as a pair
  or as a line of a file.
-/
import FilterTemplate.Proofs.Loader.Failure
import FilterTemplate.Proofs.Loader.Members

namespace FilterTemplate

open Text (isBlank trim HasLines)

/-! ## Lines -/

/-- Whether a line is passed over is told by its first character that is not blank. -/
theorem isPassedOver_append_cons_iff {before : List Char} (hbefore : ∀ c ∈ before, isBlank c = true)
    {c : Char} (hc : isBlank c = false) (rest : List Char) :
    IsPassedOver (before ++ c :: rest) ↔ c = '#' := by
  have hnone : (before.find? fun d => !isBlank d) = none := by
    rw [List.find?_eq_none]
    intro d hd
    simp [hbefore d hd]
  have hfirst : ((before ++ c :: rest).find? fun d => !isBlank d) = some c := by
    rw [List.find?_append, hnone, Option.none_or, List.find?_cons_of_pos (by simp [hc])]
  have hink : ¬ (before ++ c :: rest).all isBlank = true := by
    rw [List.all_eq_true]
    intro hall
    have hblank := hall c (by simp)
    rw [hc] at hblank
    exact absurd hblank (by decide)
  rw [IsPassedOver, hfirst, Option.some.injEq]
  exact or_iff_right hink

/-! ## Pairs -/

/-- A key and a text in quotes behind an equals sign, each between two other texts. -/
def quotedPair (w₁ key w₂ w₃ content w₄ : List Char) : List Char :=
  w₁ ++ key ++ w₂ ++ '=' :: (w₃ ++ '\'' :: (content ++ ['\'']) ++ w₄)

section

variable {key : List Char} (hne : key ≠ []) (htrim : trim key = key)
  {w₁ w₂ w₃ w₄ : List Char} (hblank : ∀ c ∈ w₁ ++ w₂ ++ w₃ ++ w₄, isBlank c = true)
  (content : List Char)

include hne htrim hblank

/-- With blanks for the other texts, the pair assigns the text in quotes to the key. -/
theorem assigns_quotedPair (hequals : '=' ∉ key) :
    Assigns (quotedPair w₁ key w₂ w₃ content w₄)
      (String.ofList key, .string (String.ofList content)) := by
  simp only [List.forall_mem_append] at hblank
  obtain ⟨⟨⟨h₁, h₂⟩, h₃⟩, h₄⟩ := hblank
  have hkey : trim (w₁ ++ key ++ w₂) = key := by
    rw [Text.trim_append h₂, Text.trim_blanks_append h₁, htrim]
  -- The first equals sign is the one behind the key: blanks are none.
  have hnone : '=' ∉ w₁ ++ key ++ w₂ := by
    have hink : ∀ {w : List Char}, (∀ c ∈ w, isBlank c = true) → '=' ∉ w :=
      fun h hmem => absurd (h _ hmem) (by decide)
    simp [hink h₁, hink h₂, hequals]
  have hassigns := @Assigns.intro _ (w₃ ++ '\'' :: (content ++ ['\'']) ++ w₄) hnone
    (by rwa [hkey])
  rwa [hkey, Value.ofText_of_quotes h₃ h₄] at hassigns

/-- As a line the pair is passed over only if its key looks like a comment. -/
theorem isPassedOver_quotedPair_iff :
    IsPassedOver (quotedPair w₁ key w₂ w₃ content w₄) ↔ key.head? = some '#' := by
  have h₁ : ∀ c ∈ w₁, isBlank c = true := fun c hc => hblank c (by simp [hc])
  obtain ⟨c, t, rfl, hc⟩ := Text.startsInk_of_trim_eq hne htrim
  have hpair : quotedPair w₁ (c :: t) w₂ w₃ content w₄ =
      w₁ ++ c :: (t ++ w₂ ++ '=' :: (w₃ ++ '\'' :: (content ++ ['\'']) ++ w₄)) := by
    simp [quotedPair]
  rw [hpair, isPassedOver_append_cons_iff h₁ hc, List.head?_cons, Option.some.injEq]

end

/-! ## Loading -/

namespace Loader

/-- A file of a single line, whatever ends it, sets what the line assigns. -/
theorem loadFile_of_hasLines_singleton {path : String} (hpath : FileName.isJson path = false)
    {line : List Char} {text : String} (htext : HasLines [line] text.toList)
    (hfeed : '\n' ∉ line) (hkept : ¬ IsPassedOver line) {e : String × Value}
    (he : Assigns line e) (l : Loader) :
    l.loadFile path (.ok text.toUTF8) = (⟨l.params.insert e.1 e.2, l.log⟩, none) := by
  have hne : line ≠ [] := by
    rintro rfl
    exact hkept (.inl rfl)
  have hlines : (Text.lines text.toList).map trim = [line].map trim :=
    Text.map_trim_lines htext (by simpa using hfeed) (by simpa using hne)
  rw [loadFile_toUTF8, loadText_of_not_isJson hpath, assignLines_of_map_trim_eq hlines,
    assignLines_of_assigns hkept he]
  rfl

/-- Every string can be given to a key in quotes, as it is. A pair of the key and the string sets
just that, whatever blanks stand around the two, and so does a file of this one line if the line
has no line feed in it and does not look like a comment. -/
theorem applyPairs_and_loadFile_quotedPair (l : Loader) (key content : String)
    (hne : key.toList ≠ []) (htrim : trim key.toList = key.toList) (hequals : '=' ∉ key.toList)
    {w₁ w₂ w₃ w₄ : List Char} (hblank : ∀ c ∈ w₁ ++ w₂ ++ w₃ ++ w₄, isBlank c = true) :
    l.applyPairs [String.ofList (quotedPair w₁ key.toList w₂ w₃ content.toList w₄)] =
        (⟨l.params.insert key (.string content), l.log ++ [.paramSet key "string"]⟩, none) ∧
      ∀ path text : String, FileName.isJson path = false →
        HasLines [quotedPair w₁ key.toList w₂ w₃ content.toList w₄] text.toList →
        '\n' ∉ quotedPair w₁ key.toList w₂ w₃ content.toList w₄ →
        key.toList.head? ≠ some '#' →
        l.loadFile path (.ok text.toUTF8) =
          (⟨l.params.insert key (.string content), l.log⟩, none) := by
  have hassigns := assigns_quotedPair hne htrim hblank content.toList hequals
  rw [String.ofList_toList, String.ofList_toList] at hassigns
  constructor
  · have hpair : Assigns (String.ofList (quotedPair w₁ key.toList w₂ w₃ content.toList w₄)).toList
        (key, .string content) := by rwa [String.toList_ofList]
    rw [applyPairs_of_assigns hpair, applyPairs]
    rfl
  · intro path text hpath htext hfeed hcomment
    have hkept : ¬ IsPassedOver (quotedPair w₁ key.toList w₂ w₃ content.toList w₄) :=
      mt (isPassedOver_quotedPair_iff hne htrim hblank content.toList).1 hcomment
    exact loadFile_of_hasLines_singleton hpath htext hfeed hkept hassigns l

/-- A string of marks that reads as a pair, a comment and JSON, with blanks at its ends, for a key
that is there already, between blanks of other scripts. -/
theorem applyPairs_and_loadFile_quotedPair_of_marks :
    let l : Loader := ⟨.ofList [("a b", .null), ("c", .boolean true)], []⟩
    let content := " '#k=[1]' "
    let text := "\u00a0a b\t=\u3000' '#k=[1]' ' \r\n"
    let params : Params := .ofList [("a b", .string content), ("c", .boolean true)]
    l.applyPairs ["\u00a0a b\t=\u3000' '#k=[1]' ' "] =
        (⟨params, [.paramSet "a b" "string"]⟩, none) ∧
      FileName.isJson "p.env" = false ∧
      l.loadFile "p.env" (.ok text.toUTF8) = (⟨params, []⟩, none) := by
  intro l content text params
  have hpath : FileName.isJson "p.env" = false := by decide +kernel
  have hline : quotedPair ['\u00a0'] "a b".toList ['\t'] ['\u3000'] content.toList [' '] =
      "\u00a0a b\t=\u3000' '#k=[1]' ' ".toList := by decide +kernel
  have hparams : l.params.insert "a b" (.string content) = params := rfl
  have htext : HasLines ["\u00a0a b\t=\u3000' '#k=[1]' ' ".toList] text.toList := by
    have hsplit : text.toList =
        "\u00a0a b\t=\u3000' '#k=[1]' ' ".toList ++ (['\r', '\n'] ++ []) := by decide +kernel
    rw [hsplit]
    exact .cons .returnFeed .nil
  have hblank : ∀ c ∈ ['\u00a0'] ++ ['\t'] ++ ['\u3000'] ++ [' '], isBlank c = true := by
    rw [← List.all_eq_true]
    decide
  obtain ⟨hpair, hfile⟩ := applyPairs_and_loadFile_quotedPair l "a b" content (by decide)
    (by decide) (by decide) hblank
  rw [hline, hparams] at hpair hfile
  exact ⟨hpair, hpath, hfile "p.env" text hpath htext (by decide) (by decide)⟩

end Loader

end FilterTemplate
