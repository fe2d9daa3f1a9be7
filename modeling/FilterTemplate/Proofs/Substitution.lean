/-
  FilterTemplate.Proofs.Substitution

  Substitution part by part. A template is cut into texts that open no
  placeholder and placeholders; `substitute` goes over the whole text once for
  each name, and still each part comes out as if it stood alone.

  What makes the parts independent is that literals are sealed: a bare word has
  no brace, and a quoted one ends in a quote, which no placeholder has inside.
  So an occurrence of a placeholder neither reaches into a literal from the left
  nor out of it to the right, whatever the literal quotes.
-/
import FilterTemplate.Proofs.Table
import FilterTemplate.Proofs.Text.Replacement
import FilterTemplate.Proofs.Value.LiteralForm
import FilterTemplate.Segment

namespace FilterTemplate

/-! ## Names and literals -/

/-- The name can stand in a placeholder and out of a literal: no brace, no quote. -/
def IsPlainName (name : String) : Prop :=
  '\x7b' ∉ name.toList ∧ '\x7d' ∉ name.toList ∧ '\'' ∉ name.toList

/-- The literal of the value has the two characters that open a placeholder. -/
def Value.OpensPlaceholder (v : Value) : Prop :=
  ['\x7b', ':'] <:+: v.literal

instance : DecidablePred IsPlainName := fun _ => inferInstanceAs (Decidable (_ ∧ _ ∧ _))

instance : DecidablePred Value.OpensPlaceholder := fun _ =>
  inferInstanceAs (Decidable (_ <:+: _))

instance : DecidablePred Segment.IsPlain
  | .text content => inferInstanceAs (Decidable ('\x7b' ∉ content))
  | .placeholder _ => inferInstanceAs (Decidable (_ ∧ _))

theorem quote_not_mem_placeholder {name : String} (h : '\'' ∉ name.toList) :
    '\'' ∉ placeholder name := by
  simp [placeholder, h]

theorem placeholder_ne_nil (name : String) : placeholder name ≠ [] :=
  List.cons_ne_nil _ _

/-- A placeholder at the start of a text is that of the name that stands there. -/
theorem placeholder_prefix_iff {key name : String} (hkey : '\x7d' ∉ key.toList)
    (hname : '\x7d' ∉ name.toList) (s : List Char) :
    placeholder key <+: placeholder name ++ s ↔ key = name := by
  constructor
  · intro h
    -- Behind the opening, both names end at the first closing brace.
    have h' : key.toList ++ ['\x7d'] <+: name.toList ++ '\x7d' :: s := by
      simpa [placeholder] using h
    obtain ⟨t, ht⟩ := h'
    have hlists : key.toList = name.toList := by
      rw [List.append_assoc, List.append_eq_append_iff] at ht
      rcases ht with ⟨u, hu, hrest⟩ | ⟨u, hu, hrest⟩
      · cases u with
        | nil => simpa using hu.symm
        | cons c u =>
          obtain ⟨rfl, -⟩ := List.cons.inj hrest
          exact absurd (by simp [hu]) hname
      · cases u with
        | nil => simpa using hu
        | cons c u =>
          obtain ⟨rfl, -⟩ := List.cons.inj hrest
          exact absurd (by simp [hu]) hkey
    exact String.toList_inj.1 hlists
  · rintro rfl
    exact List.prefix_append _ s

/-! ## Sealed texts -/

/-- No placeholder begins in the text and ends behind it: nothing opens one, or
a quote comes last. -/
def IsSealed (s : List Char) : Prop :=
  '\x7b' ∉ s ∨ ∃ t, s = t ++ ['\'']

theorem Value.isSealed_literal (v : Value) : IsSealed v.literal := by
  rcases v.literal_quoted_or_bare with ⟨s, -, hs⟩ | ⟨-, hbare⟩
  · exact .inr ⟨'\'' :: Text.escapeQuotes s, by rw [hs, Text.quoted, List.cons_append]⟩
  · exact .inl (hbare.not_mem (by decide))

namespace IsSealed

variable {s : List Char}

/-- Behind a sealed text the replacement starts afresh. -/
theorem replaceAll_append (h : IsSealed s) {name : String} (hn : '\'' ∉ name.toList)
    (replacement t : List Char) :
    Text.replaceAll (placeholder name) replacement (s ++ t) =
      Text.replaceAll (placeholder name) replacement s ++
        Text.replaceAll (placeholder name) replacement t := by
  rcases h with h | ⟨u, rfl⟩
  · rw [placeholder, Text.replaceAll_append_of_head_not_mem h, Text.replaceAll_of_head_not_mem h]
  · have hcut := Text.replaceAll_append_cons (placeholder_ne_nil name)
      (quote_not_mem_placeholder hn) replacement u
    rw [List.append_assoc, List.singleton_append, hcut, hcut, Text.replaceAll_nil,
      List.append_assoc, List.singleton_append]

theorem replaceAll (h : IsSealed s) {name : String} (hn : '\'' ∉ name.toList)
    (replacement : List Char) :
    IsSealed (Text.replaceAll (placeholder name) replacement s) := by
  rcases h with h | ⟨u, rfl⟩
  · rw [placeholder, Text.replaceAll_of_head_not_mem h]
    exact .inl h
  · refine .inr ⟨Text.replaceAll (placeholder name) replacement u, ?_⟩
    rw [Text.replaceAll_append_cons (placeholder_ne_nil name) (quote_not_mem_placeholder hn),
      Text.replaceAll_nil]

theorem substituteEntries_append (h : IsSealed s) {entries : List (String × Value)}
    (hkeys : ∀ e ∈ entries, '\'' ∉ e.1.toList) (t : List Char) :
    substituteEntries entries (s ++ t) =
      substituteEntries entries s ++ substituteEntries entries t := by
  induction entries generalizing s t with
  | nil => rfl
  | cons e rest ih =>
    obtain ⟨key, v⟩ := e
    obtain ⟨hkey, hrest⟩ := List.forall_mem_cons.1 hkeys
    simp only [substituteEntries]
    rw [h.replaceAll_append hkey, ih (h.replaceAll hkey v.literal) hrest]

end IsSealed

/-! ## Parts -/

/-- A text in which none of the placeholders occurs stays as it is. -/
theorem substituteEntries_eq_self {entries : List (String × Value)} {s : List Char}
    (h : ∀ e ∈ entries, ¬ placeholder e.1 <:+: s) : substituteEntries entries s = s := by
  induction entries with
  | nil => rfl
  | cons e rest ih =>
    obtain ⟨hfirst, hrest⟩ := List.forall_mem_cons.1 h
    rw [substituteEntries, Text.replaceAll_eq_self hfirst, ih hrest]

theorem substituteEntries_of_not_mem {s : List Char} (h : '\x7b' ∉ s)
    (entries : List (String × Value)) : substituteEntries entries s = s :=
  substituteEntries_eq_self fun _ _ hi => h (hi.subset List.mem_cons_self)

/-- A replacement for one name replaces a placeholder of that name and passes
over one of another name. -/
theorem replaceAll_placeholder_append {key name : String} (hkey : '\x7d' ∉ key.toList)
    (hname : '\x7b' ∉ name.toList ∧ '\x7d' ∉ name.toList) (replacement s : List Char) :
    Text.replaceAll (placeholder key) replacement (placeholder name ++ s) =
      (if key = name then replacement else placeholder name) ++
        Text.replaceAll (placeholder key) replacement s := by
  split
  · next h => rw [h, Text.replaceAll_append_of_pattern (placeholder_ne_nil name)]
  · next h =>
    -- The brace at the start opens no placeholder of the key, and no other
    -- brace of the placeholder opens any.
    have htail : '\x7b' ∉ ':' :: (name.toList ++ ['\x7d']) := by simp [hname.1]
    have hstart : ¬ placeholder key <+: '\x7b' :: ((':' :: (name.toList ++ ['\x7d'])) ++ s) :=
      fun hp => h ((placeholder_prefix_iff hkey hname.2 s).1 hp)
    show Text.replaceAll _ _ ('\x7b' :: ((':' :: (name.toList ++ ['\x7d'])) ++ s)) = _
    rw [Text.replaceAll_cons_of_not_isPrefix hstart]
    exact congrArg ('\x7b' :: ·) (Text.replaceAll_append_of_head_not_mem htail _ replacement s)

/-- A placeholder becomes the literal of its name, filled with the later names. -/
theorem substituteEntries_placeholder_append {entries : List (String × Value)} {name : String}
    (hkeys : ∀ e ∈ entries, IsPlainName e.1)
    (hname : '\x7b' ∉ name.toList ∧ '\x7d' ∉ name.toList) (s : List Char) :
    substituteEntries entries (placeholder name ++ s) =
      Segment.fillName name entries ++ substituteEntries entries s := by
  induction entries generalizing s with
  | nil => rfl
  | cons e rest ih =>
    obtain ⟨key, v⟩ := e
    obtain ⟨hkey, hrest⟩ := List.forall_mem_cons.1 hkeys
    simp only [substituteEntries, Segment.fillName]
    rw [replaceAll_placeholder_append hkey.2.1 hname]
    split
    · -- From here on the literal is a sealed text among others.
      exact v.isSealed_literal.substituteEntries_append (fun e he => (hrest e he).2.2) _
    · exact ih hrest _

/-- Each part of a template is filled by itself. -/
theorem substituteEntries_sources {entries : List (String × Value)}
    (hkeys : ∀ e ∈ entries, IsPlainName e.1) {parts : List Segment}
    (hparts : ∀ part ∈ parts, part.IsPlain) :
    substituteEntries entries (Segment.sources parts) = Segment.fillAll entries parts := by
  induction parts with
  | nil => exact substituteEntries_of_not_mem (List.not_mem_nil) entries
  | cons part parts ih =>
    obtain ⟨hpart, hrest⟩ := List.forall_mem_cons.1 hparts
    rw [Segment.sources, List.flatMap_cons, Segment.fillAll, List.flatMap_cons,
      ← Segment.sources, ← Segment.fillAll, ← ih hrest]
    cases part with
    | text content =>
      have hsealed : IsSealed content := .inl hpart
      rw [Segment.source, Segment.fill,
        hsealed.substituteEntries_append (fun e he => (hkeys e he).2.2),
        substituteEntries_of_not_mem hpart]
    | placeholder name =>
      rw [Segment.source, Segment.fill, substituteEntries_placeholder_append hkeys hpart]

theorem Segment.fillName_of_not_mem {entries : List (String × Value)} {name : String}
    (h : name ∉ entries.map Prod.fst) :
    fillName name entries = FilterTemplate.placeholder name := by
  induction entries with
  | nil => rfl
  | cons e rest ih =>
    rw [List.map_cons, List.mem_cons, not_or] at h
    rw [fillName, if_neg (Ne.symm h.1), ih h.2]

/-- Only the names behind its own are filled in the literal of a name. -/
theorem Segment.fillName_of_append {earlier later : List (String × Value)} {name : String}
    (h : name ∉ earlier.map Prod.fst) (v : Value) :
    fillName name (earlier ++ (name, v) :: later) = substituteEntries later v.literal := by
  induction earlier with
  | nil => rw [List.nil_append, fillName, if_pos rfl]
  | cons e rest ih =>
    rw [List.map_cons, List.mem_cons, not_or] at h
    rw [List.cons_append, fillName, if_neg (Ne.symm h.1), ih h.2]

/-! ## Filling at once -/

/-- What a part becomes when each name stands for a text of its own. -/
def Segment.fillWith (text : String → List Char) : Segment → List Char
  | .text content => content
  | .placeholder name => text name

/-- What a name stands for: the literal of its value, or its placeholder if it has none. -/
def Params.textOf (params : Params) (name : String) : List Char :=
  match params.get? name with
  | some v => v.literal
  | none => placeholder name

theorem substituteEntries_of_not_infix {s : List Char} (h : ¬ ['\x7b', ':'] <:+: s)
    (entries : List (String × Value)) : substituteEntries entries s = s := by
  refine substituteEntries_eq_self fun e _ hi => ?_
  have hopening : ['\x7b', ':'] <+: placeholder e.1 :=
    List.prefix_append _ (e.1.toList ++ ['\x7d'])
  exact h (hopening.isInfix.trans hi)

/-- Where no literal opens a placeholder, a name becomes the literal of its value. -/
theorem Segment.fillName_eq_textOf {params : Params}
    (h : ∀ e ∈ params.entries, ¬ e.2.OpensPlaceholder) (name : String) :
    fillName name params.entries = params.textOf name := by
  simp only [Params.textOf, Table.get?]
  generalize params.entries = entries at h ⊢
  induction entries with
  | nil => rfl
  | cons e rest ih =>
    obtain ⟨key, v⟩ := e
    obtain ⟨hv, hrest⟩ := List.forall_mem_cons.1 h
    by_cases hk : key = name
    · rw [fillName, if_pos hk, hk, List.lookup_cons_self]
      exact substituteEntries_of_not_infix hv rest
    · rw [fillName, if_neg hk, ih hrest, List.lookup_cons, beq_eq_false_iff_ne.2 (Ne.symm hk)]

/-- Where no literal opens a placeholder, all names are filled at once. -/
theorem substituteEntries_sources_eq_fillWith {params : Params}
    (hkeys : ∀ key ∈ params.keys, IsPlainName key)
    (hvalues : ∀ e ∈ params.entries, ¬ e.2.OpensPlaceholder) {parts : List Segment}
    (hparts : ∀ part ∈ parts, part.IsPlain) :
    substituteEntries params.entries (Segment.sources parts) =
      parts.flatMap (Segment.fillWith params.textOf) := by
  have hentries : ∀ e ∈ params.entries, IsPlainName e.1 := fun e he =>
    hkeys e.1 (List.mem_map_of_mem he)
  have hfill : Segment.fill params.entries = Segment.fillWith params.textOf := by
    funext part
    cases part with
    | text content => rfl
    | placeholder name => exact Segment.fillName_eq_textOf hvalues name
  rw [substituteEntries_sources hentries hparts, Segment.fillAll, hfill]

/-- The meaning of filling a template name by name. Each part is filled by
itself: texts stay, a placeholder of an unknown name stays, and a placeholder of
a known name becomes the literal of its value in which the later names are
filled, whatever the values are. If no literal opens a placeholder, all names
are filled at once, and the order of the table does not matter. -/
theorem substitute_sources (parts : List Segment) (params : Params)
    (hparts : ∀ part ∈ parts, part.IsPlain) (hkeys : ∀ key ∈ params.keys, IsPlainName key) :
    substitute (String.ofList (Segment.sources parts)) (some params) =
        String.ofList (Segment.fillAll params.entries parts) ∧
      (∀ name, name ∉ params.keys →
        Segment.fillName name params.entries = placeholder name) ∧
      (∀ earlier name v later, params.entries = earlier ++ (name, v) :: later →
        Segment.fillName name params.entries =
          (substitute (String.ofList v.literal) (some (.ofList later))).toList) ∧
      ((∀ e ∈ params.entries, ¬ e.2.OpensPlaceholder) →
        ∀ other : Params, other.entries.Perm params.entries →
          substitute (String.ofList (Segment.sources parts)) (some other) =
            String.ofList (parts.flatMap (Segment.fillWith params.textOf))) := by
  have hentries : ∀ e ∈ params.entries, IsPlainName e.1 := fun e he =>
    hkeys e.1 (List.mem_map_of_mem he)
  refine ⟨?_, fun name hname => Segment.fillName_of_not_mem hname, ?_, ?_⟩
  · rw [substitute, String.toList_ofList, substituteEntries_sources hentries hparts]
  · intro earlier name v later hsplit
    -- The names of the split table are distinct, and so are those of its end.
    have hnodup := params.nodup
    rw [hsplit, List.map_append, List.map_cons, List.nodup_append, List.nodup_cons] at hnodup
    have hname : name ∉ earlier.map Prod.fst := fun hmem =>
      hnodup.2.2 name hmem name List.mem_cons_self rfl
    rw [hsplit, Segment.fillName_of_append hname, substitute, String.toList_ofList,
      String.toList_ofList, Table.entries_ofList_of_nodup hnodup.2.1.2]
  · intro hvalues other hperm
    have hkeys' : ∀ key ∈ other.keys, IsPlainName key := fun key hk =>
      hkeys key ((hperm.map Prod.fst).mem_iff.1 hk)
    have hvalues' : ∀ e ∈ other.entries, ¬ e.2.OpensPlaceholder := fun e he =>
      hvalues e (hperm.mem_iff.1 he)
    have htext : other.textOf = params.textOf := by
      funext name
      rw [Params.textOf, Params.textOf, Table.get?_eq_of_perm hperm name]
    rw [substitute, String.toList_ofList,
      substituteEntries_sources_eq_fillWith hkeys' hvalues' hparts, htext]

/-- A value that spells the placeholder of a later name is filled in turn, and
values that open no placeholder may come in any order. -/
theorem substitute_sources_nested_and_reordered :
    let parts : List Segment :=
      [.text "x=".toList, .placeholder "a", .text " && y=".toList, .placeholder "ab",
        .placeholder "c"]
    let nested : Params := ⟨[("a", .string "\x7b:ab\x7d"), ("ab", .int 2)], by decide⟩
    let closed : Params := ⟨[("a", .string "O'Brien"), ("ab", .int 2)], by decide⟩
    let turned : Params := ⟨[("ab", .int 2), ("a", .string "O'Brien")], by decide⟩
    substitute (String.ofList (Segment.sources parts)) (some nested) =
        "x='2' && y=2\x7b:c\x7d" ∧
      Segment.fillName "a" nested.entries =
        (substitute "'\x7b:ab\x7d'" (some (.ofList [("ab", .int 2)]))).toList ∧
      substitute (String.ofList (Segment.sources parts)) (some turned) =
        substitute (String.ofList (Segment.sources parts)) (some closed) ∧
      substitute (String.ofList (Segment.sources parts)) (some closed) =
        "x='O\\'Brien' && y=2\x7b:c\x7d" := by
  intro parts nested closed turned
  have hparts : ∀ part ∈ parts, part.IsPlain := by decide +kernel
  have hkeys : ∀ key ∈ nested.keys, IsPlainName key := by decide +kernel
  have hvalues : ∀ e ∈ closed.entries, ¬ e.2.OpensPlaceholder := by decide +kernel
  obtain ⟨hfill, -, hturn, -⟩ := substitute_sources parts nested hparts hkeys
  have hany := (substitute_sources parts closed hparts hkeys).2.2.2 hvalues
  have hclosed := hany closed (.refl _)
  refine ⟨hfill.trans (by decide +kernel), ?_, (hany turned (.swap _ _ [])).trans hclosed.symm,
    hclosed.trans (by decide +kernel)⟩
  exact hturn [] "a" (.string "\x7b:ab\x7d") [("ab", .int 2)] rfl

end FilterTemplate
