/-
  FilterTemplate.Proofs.Locality

  Substitution is local. A text in front that opens no brace and a text behind
  that closes none take no part in it, and a text in which no placeholder of the
  table occurs is left alone. Nothing is asked of the template or of the names:
  braces may be nested or unbalanced, names may have braces of their own, and a
  literal may make up a placeholder with what stands around it.

  Each replacement keeps both surroundings as they are, so they are still free
  of the brace when the next name is filled.
-/
import FilterTemplate.Proofs.Substitution

namespace FilterTemplate

/-- A placeholder begins with an opening brace, so none begins in the text in front. -/
theorem substituteEntries_append_left {a : List Char} (h : '\x7b' ∉ a)
    (entries : List (String × Value)) (s : List Char) :
    substituteEntries entries (a ++ s) = a ++ substituteEntries entries s := by
  induction entries generalizing s with
  | nil => rfl
  | cons e rest ih =>
    have hfirst : Text.replaceAll (placeholder e.1) e.2.literal (a ++ s) =
        a ++ Text.replaceAll (placeholder e.1) e.2.literal s :=
      Text.replaceAll_append_of_head_not_mem h _ _ s
    rw [substituteEntries, substituteEntries, hfirst, ih]

/-- A placeholder ends in a closing brace, so none ends in the text behind. -/
theorem substituteEntries_append_right {b : List Char} (h : '\x7d' ∉ b)
    (entries : List (String × Value)) (s : List Char) :
    substituteEntries entries (s ++ b) = substituteEntries entries s ++ b := by
  induction entries generalizing s with
  | nil => rfl
  | cons e rest ih =>
    have hfirst : Text.replaceAll (placeholder e.1) e.2.literal (s ++ b) =
        Text.replaceAll (placeholder e.1) e.2.literal s ++ b :=
      Text.replaceAll_append_of_last_not_mem h ('\x7b' :: ':' :: e.1.toList) _ s
    rw [substituteEntries, substituteEntries, hfirst, ih]

/-- Filling a template is local, whatever the names and values are. What stands
before the first opening brace and behind the last closing one can be taken off
and put back, and a template in which no name's placeholder occurs is its own
filling. -/
theorem substitute_append_append_and_eq_self (params : Params) :
    (∀ a raw b : String, '\x7b' ∉ a.toList → '\x7d' ∉ b.toList →
      substitute (a ++ raw ++ b) (some params) = a ++ substitute raw (some params) ++ b) ∧
    ∀ raw : String, (∀ name ∈ params.keys, ¬ placeholder name <:+: raw.toList) →
      substitute raw (some params) = raw := by
  constructor
  · intro a raw b ha hb
    apply String.toList_inj.1
    simp only [substitute, String.toList_append, String.toList_ofList]
    rw [substituteEntries_append_right hb, substituteEntries_append_left ha]
  · intro raw h
    have hentries : ∀ e ∈ params.entries, ¬ placeholder e.1 <:+: raw.toList := fun e he =>
      h e.1 (List.mem_map_of_mem he)
    rw [substitute, substituteEntries_eq_self hentries, String.ofList_toList]

/-- A name inside the braces of another, a name with a brace at its end, a brace
closed in front and a placeholder cut off behind: filling goes on in the middle
only. Where the inner name is unknown nothing is filled. -/
theorem substitute_append_append_and_eq_self_of_nested_braces :
    let params : Params :=
      ⟨[("b", .int 1), ("a1", .string "it's"), ("c\x7d", .boolean true)], by decide⟩
    substitute ("x\x7d=" ++ "\x7b:a\x7b:b\x7d\x7d \x7b:c\x7d\x7d" ++ " && \x7b:b") (some params) =
        "x\x7d='it\\'s' true && \x7b:b" ∧
      substitute "\x7b:a\x7b:c\x7d \x7b:a1 \x7d" (some params) =
        "\x7b:a\x7b:c\x7d \x7b:a1 \x7d" := by
  intro params
  obtain ⟨hframe, hself⟩ := substitute_append_append_and_eq_self params
  have hmiddle : substitute "\x7b:a\x7b:b\x7d\x7d \x7b:c\x7d\x7d" (some params) =
      "'it\\'s' true" := by decide +kernel
  constructor
  · rw [hframe _ _ _ (by decide +kernel) (by decide +kernel), hmiddle]
    decide +kernel
  · exact hself _ (by decide +kernel)

end FilterTemplate
