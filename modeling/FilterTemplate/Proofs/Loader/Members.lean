/-
  FilterTemplate.Proofs.Loader.Members

  Ways to supply the same values. A pair sets the entry of the member it gives,
  and so does a line, whatever ends it; a file of JSON collects the entries of
  its object first and sets them then, which comes to the same. The object is
  one level of nesting, so a value that can stand in it can stand by itself.
-/
import FilterTemplate.Loader.Members
import FilterTemplate.Proofs.Json.Printing
import FilterTemplate.Proofs.Loader.Assignments
import FilterTemplate.Proofs.Params.Reading
import FilterTemplate.Proofs.Table
import FilterTemplate.Proofs.Value.Reading

namespace FilterTemplate

open Json (MemberText IsObjectText)
open Text (HasLines IsLineEnd StartsInk EndsInk)

/-! ## Lines -/

/-- Up to blanks at their ends, the lines of a text are the ones that it is made of. -/
theorem Text.map_trim_lines {ls : List (List Char)} {text : List Char} (h : HasLines ls text)
    (hfeed : ∀ line ∈ ls, '\n' ∉ line) (hne : ∀ line ∈ ls, line ≠ []) :
    (lines text).map trim = ls.map trim := by
  have hreturn : ∀ c ∈ ['\r'], isBlank c = true := List.forall_mem_singleton.2 (by decide)
  induction h with
  | nil => rfl
  | last line =>
    rw [lines_eq_singleton (hfeed line List.mem_cons_self) (hne line List.mem_cons_self)]
  | @cons line ending text rest hending _ ih =>
    rw [List.forall_mem_cons] at hfeed hne
    -- Before the line feed there may be a carriage return.
    have hsplit : ∃ line', '\n' ∉ line' ∧ trim line' = trim line ∧
        line ++ (ending ++ text) = line' ++ '\n' :: text := by
      cases hending with
      | feed => exact ⟨line, hfeed.1, rfl, rfl⟩
      | returnFeed =>
        exact ⟨line ++ ['\r'], by simp [hfeed.1], trim_append hreturn line, by simp⟩
    obtain ⟨line', hfeed', htrim, heq⟩ := hsplit
    obtain ⟨first, hfirst, hlines⟩ := exists_lines_eq_cons hfeed' text
    rw [heq, hlines, List.map_cons, List.map_cons, hfirst.trans htrim, ih hfeed.2 hne.2]

/-! ## Pairs -/

/-- The first equals sign parts the name from the text of the value. -/
theorem assignment?_append {name : List Char} (hne : name ≠ []) (htrim : Text.trim name = name)
    (hequals : '=' ∉ name) (v : List Char) :
    assignment? (name ++ '=' :: v) = some (name, Text.trim v) := by
  rw [assignment?_append_cons hequals, htrim, if_neg hne]

namespace Json.MemberText

variable {m : MemberText}

/-- The entry that the member sets. -/
def entry (m : MemberText) : String × Value :=
  (m.name, .ofJson m.value)

theorem assignment?_pair (h : m.IsAssignable) :
    assignment? m.pair = some (m.name.toList, Text.trim m.valueText) :=
  assignment?_append h.name_ne h.trim_name h.no_equals m.valueText

theorem ofText_valueText (h : m.IsWithin Reader.nestingLimit) :
    Value.ofText (Text.trim m.valueText) = .ofJson m.value :=
  (Value.ofText_of_padded h).2

/-- A trimmed pair has lost white space behind the value at most. -/
theorem exists_trim_pair (hname : m.IsAssignable) (h : m.IsWithin Reader.nestingLimit) :
    ∃ v, Text.trim m.pair = m.name.toList ++ '=' :: v ∧
      Padded (Spells Reader.nestingLimit) v m.value := by
  obtain ⟨before, core, after, hbefore, hcore, hafter, hvalue⟩ := Padded.exists_eq h
  obtain ⟨c, t, hc, hink⟩ := Text.startsInk_of_trim_eq hname.name_ne hname.trim_name
  -- Neither the first character of the name nor the last of the value is blank.
  have hstart : StartsInk m.pair := ⟨c, t ++ '=' :: m.valueText, by rw [pair, hc]; rfl, hink⟩
  have hend : EndsInk (m.name.toList ++ '=' :: (before ++ core)) :=
    ((endsInk_of_spells hcore).append_left ('=' :: before)).append_left m.name.toList
  have hpair : m.pair = m.name.toList ++ '=' :: (before ++ core) ++ after := by
    rw [pair, hvalue]
    simp
  refine ⟨before ++ core, ?_, (Padded.of_spells hcore).spaces_append hbefore⟩
  rw [Text.trim, Text.trimStart_of_startsInk hstart, hpair,
    Text.trimEnd_append_of_endsInk hend (Text.isBlank_of_isSpaces hafter)]

theorem isIgnored_pair (hname : m.IsAssignable) (h : m.IsWithin Reader.nestingLimit)
    (hline : m.FitsLine) : Loader.isIgnored m.pair = false := by
  obtain ⟨v, htrim, -⟩ := exists_trim_pair hname h
  obtain ⟨c, t, hc⟩ := List.exists_cons_of_ne_nil hname.name_ne
  have hcomment := hline.no_comment
  rw [hc, List.head?_cons, Ne, Option.some.injEq] at hcomment
  rw [Loader.isIgnored, htrim, hc, List.cons_append]
  exact beq_eq_false_iff_ne.2 hcomment

end Json.MemberText

/-! ## Loading -/

namespace Loader

/-- Blanks at the ends of lines do not matter. -/
theorem assignLines_of_map_trim_eq {ls ls' : List (List Char)}
    (h : ls.map Text.trim = ls'.map Text.trim) (p : Params) (number : Nat) :
    assignLines p number ls = assignLines p number ls' := by
  rw [← List.forall₂_eq_eq_eq, List.forall₂_map_left_iff, List.forall₂_map_right_iff] at h
  exact assignLines_congr (h.imp fun _ _ => .ends) p number

/-- Lines that give members set their entries. -/
theorem assignLines_pairs {members : List MemberText} (hnames : ∀ m ∈ members, m.IsAssignable)
    (hwithin : ∀ m ∈ members, m.IsWithin Json.Reader.nestingLimit)
    (hlines : ∀ m ∈ members, m.FitsLine) (p : Params) (number : Nat) :
    assignLines p number (members.map MemberText.pair) =
      (p.extend (members.map MemberText.entry), none) := by
  induction members generalizing p number with
  | nil => rfl
  | cons m members ih =>
    rw [List.forall_mem_cons] at hnames hwithin hlines
    obtain ⟨v, htrim, hv⟩ := MemberText.exists_trim_pair hnames.1 hwithin.1
    have hassignment := assignment?_append hnames.1.name_ne hnames.1.trim_name
      hnames.1.no_equals v
    have hassign : p.assign m.name.toList (Text.trim v) = p.insert m.name (.ofJson m.value) := by
      rw [Params.assign, String.ofList_toList, (Value.ofText_of_padded hv).2]
    have hline := MemberText.isIgnored_pair hnames.1 hwithin.1 hlines.1
    rw [List.map_cons, assignLines, if_neg (by simp [hline]), htrim, hassignment]
    dsimp only
    rw [hassign, ih hnames.2 hwithin.2 hlines.2, List.map_cons, Table.extend_cons]
    rfl

/-- Pairs that give members set their entries. -/
theorem applyPairs_pairs {members : List MemberText} (hnames : ∀ m ∈ members, m.IsAssignable)
    (hwithin : ∀ m ∈ members, m.IsWithin Json.Reader.nestingLimit) (l : Loader) :
    (l.applyPairs (members.map fun m => String.ofList m.pair)).2 = none ∧
      (l.applyPairs (members.map fun m => String.ofList m.pair)).1.params =
        l.params.extend (members.map MemberText.entry) := by
  induction members generalizing l with
  | nil => exact ⟨rfl, rfl⟩
  | cons m members ih =>
    rw [List.forall_mem_cons] at hnames hwithin
    rw [List.map_cons, applyPairs, String.toList_ofList, MemberText.assignment?_pair hnames.1]
    dsimp only
    rw [MemberText.ofText_valueText hwithin.1, String.ofList_toList]
    exact ih hnames.2 hwithin.2 _

section

variable {members : List MemberText} {text path : String}

/-- A file of JSON that loads has members which leave one level of nesting. -/
theorem isWithin_of_loadText (htext : IsObjectText members text.toList)
    (hpath : FileName.isJson path = true) {l : Loader} (h : (l.loadText path text).2 = none) :
    ∀ m ∈ members, m.IsWithin (Json.Reader.nestingLimit - 1) := by
  rw [loadText, if_pos hpath] at h
  split at h
  next p hread => exact ((Params.ofText_eq_ok_iff htext).1 hread).1
  next => exact absurd h (by simp)

/-- Such a file sets the entries of its members. -/
theorem loadText_of_isWithin (htext : IsObjectText members text.toList)
    (hpath : FileName.isJson path = true)
    (hwithin : ∀ m ∈ members, m.IsWithin (Json.Reader.nestingLimit - 1)) (l : Loader) :
    (l.loadText path text).2 = none ∧
      (l.loadText path text).1.params = l.params.extend (members.map MemberText.entry) := by
  have hread := (Params.ofText_eq_ok_iff htext).2 ⟨hwithin, rfl⟩
  rw [loadText, if_pos hpath, hread]
  exact ⟨rfl, Table.extend_entries_ofList l.params _⟩

/-- A file of lines that give members sets their entries. -/
theorem loadText_of_hasLines (hlines : HasLines (members.map MemberText.pair) text.toList)
    (hpath : FileName.isJson path = false) (hnames : ∀ m ∈ members, m.IsAssignable)
    (hwithin : ∀ m ∈ members, m.IsWithin Json.Reader.nestingLimit)
    (hfits : ∀ m ∈ members, m.FitsLine) (l : Loader) :
    (l.loadText path text).2 = none ∧
      (l.loadText path text).1.params = l.params.extend (members.map MemberText.entry) := by
  have hfeed : ∀ line ∈ members.map MemberText.pair, '\n' ∉ line := by
    intro line hline
    obtain ⟨m, hm, rfl⟩ := List.mem_map.1 hline
    simp [MemberText.pair, (hfits m hm).no_feed_name, (hfits m hm).no_feed_value]
  have hne : ∀ line ∈ members.map MemberText.pair, line ≠ [] := by
    intro line hline
    obtain ⟨m, -, rfl⟩ := List.mem_map.1 hline
    simp [MemberText.pair]
  have hassigned : assignLines l.params 1 (Text.lines text.toList) =
      (l.params.extend (members.map MemberText.entry), none) := by
    rw [assignLines_of_map_trim_eq (Text.map_trim_lines hlines hfeed hne),
      assignLines_pairs hnames hwithin hfits]
  rw [loadText, if_neg (by simp [hpath]), hassigned]
  exact ⟨rfl, rfl⟩

end

/-- The ways to supply parameters agree. If the file of an object loads, then the pairs of its
members apply and set the same values, whatever was set before; and so does a file of lines with
these pairs, in which no pair runs over its line or is a comment. -/
theorem params_loadFile_eq_applyPairs {members : List MemberText} {text : String}
    (htext : IsObjectText members text.toList) (hnames : ∀ m ∈ members, m.IsAssignable)
    {path : String} (hpath : FileName.isJson path = true) (l : Loader)
    (hloaded : (l.loadFile path (.ok text.toUTF8)).2 = none) :
    (l.applyPairs (members.map fun m => String.ofList m.pair)).2 = none ∧
      (l.applyPairs (members.map fun m => String.ofList m.pair)).1.params =
        (l.loadFile path (.ok text.toUTF8)).1.params ∧
      ∀ lines other : String, HasLines (members.map MemberText.pair) lines.toList →
        FileName.isJson other = false → (∀ m ∈ members, m.FitsLine) →
        (l.loadFile other (.ok lines.toUTF8)).2 = none ∧
          (l.loadFile other (.ok lines.toUTF8)).1.params =
            (l.loadFile path (.ok text.toUTF8)).1.params := by
  rw [loadFile_toUTF8] at hloaded ⊢
  -- The values may nest as deep as the object leaves, which is less than they may by themselves.
  have hinside := isWithin_of_loadText htext hpath hloaded
  have hwithin : ∀ m ∈ members, m.IsWithin Json.Reader.nestingLimit := fun m hm =>
    (hinside m hm).mono fun _ _ => Json.spells_of_le (by decide)
  obtain ⟨-, hparams⟩ := loadText_of_isWithin htext hpath hinside l
  obtain ⟨happlied, hpairs⟩ := applyPairs_pairs hnames hwithin l
  refine ⟨happlied, hpairs.trans hparams.symm, ?_⟩
  intro lines other hlines hother hfits
  rw [loadFile_toUTF8]
  obtain ⟨hnone, hset⟩ := loadText_of_hasLines hlines hother hnames hwithin hfits l
  exact ⟨hnone, hset.trans hparams.symm⟩

/-- A repeated name, one that is set already, and values with an equals sign and padding. -/
theorem params_loadFile_eq_applyPairs_of_repeated_names :
    let l : Loader := ⟨.ofList [("b", .null)], []⟩
    let text := "\x7b\"a\":null,\"b\":\"x = y\",\"a\":true\x7d"
    (l.loadFile "p.json" (.ok text.toUTF8)).2 = none ∧
      (l.loadFile "p.json" (.ok text.toUTF8)).1.params =
        .ofList [("b", .string "x = y"), ("a", .boolean true)] ∧
      (l.applyPairs ["a=null", "b=\"x = y\"", "a=true"]).1.params =
        (l.loadFile "p.json" (.ok text.toUTF8)).1.params ∧
      (l.loadFile "p.env" (.ok "a=null\nb=\"x = y\"\r\na=true".toUTF8)).1.params =
        (l.loadFile "p.json" (.ok text.toUTF8)).1.params := by
  intro l text
  let members : List MemberText :=
    [.printed "a" .null rfl, .printed "b" (.string "x = y") rfl, .printed "a" (.bool true) rfl]
  have htext : IsObjectText members text.toList := by
    have hchars : text.toList = [] ++ '\x7b' :: ([] ++ (MemberText.texts members ++ ['\x7d'])) := by
      decide +kernel
    rw [hchars]
    exact .intro Json.Reader.isSpaces_nil Json.Reader.isSpaces_nil Json.Reader.isSpaces_nil
  have hwithin : ∀ m ∈ members, m.IsWithin (Json.Reader.nestingLimit - 1) := by
    rw [List.forall_mem_cons, List.forall_mem_cons, List.forall_mem_singleton]
    exact ⟨MemberText.isWithin_printed _ (Nat.zero_le _),
      MemberText.isWithin_printed _ (Nat.zero_le _),
      MemberText.isWithin_printed _ (Nat.zero_le _)⟩
  have hjson : FileName.isJson "p.json" = true := by decide +kernel
  obtain ⟨hloaded, hparams⟩ := loadText_of_isWithin htext hjson hwithin l
  rw [← loadFile_toUTF8] at hloaded hparams
  have hnames : ∀ m ∈ members, m.IsAssignable := by
    rw [List.forall_mem_cons, List.forall_mem_cons, List.forall_mem_singleton]
    exact ⟨⟨by decide, by decide, by decide⟩, ⟨by decide, by decide, by decide⟩,
      ⟨by decide, by decide, by decide⟩⟩
  have hfits : ∀ m ∈ members, m.FitsLine := by
    rw [List.forall_mem_cons, List.forall_mem_cons, List.forall_mem_singleton]
    exact ⟨⟨by decide, by decide, by decide⟩, ⟨by decide, by decide, by decide⟩,
      ⟨by decide, by decide, by decide⟩⟩
  have hstrings : members.map (fun m => String.ofList m.pair) =
      ["a=null", "b=\"x = y\"", "a=true"] := by decide +kernel
  have hlines : HasLines (members.map MemberText.pair)
      "a=null\nb=\"x = y\"\r\na=true".toList :=
    .cons .feed (.cons .returnFeed (.last _))
  obtain ⟨-, hpairs, hfile⟩ := params_loadFile_eq_applyPairs htext hnames hjson l hloaded
  rw [hstrings] at hpairs
  refine ⟨hloaded, ?_, hpairs, (hfile _ "p.env" hlines (by decide +kernel) hfits).2⟩
  rw [hparams]
  rfl

end Loader

end FilterTemplate
