import Mathlib.Data.List.Count

/-!
# Fields between delimiters

Fields joined with a delimiter can be told apart only if it is known how many delimiters each of
them contains itself. `intercalate_cons_inj` takes the first field off two equal joins when both
contain the delimiter equally often, `intercalate_inj_of_count` does so for all fields at once, and
`intercalate_inj_of_notMem` is the case where no field contains it, in which the number of fields
need not be known. `splitLast` cuts a text at its last delimiter and `splitFirst` at its first.
-/

set_option autoImplicit false

namespace PomboStorageNode.Library.Delimited

variable {Symbol : Type*} [DecidableEq Symbol] {delimiter : Symbol}

/-- Two texts up to a delimiter agree when they contain it equally often. -/
theorem append_cons_inj_of_count {first second firstRest secondRest : List Symbol}
    (hcount : first.count delimiter = second.count delimiter)
    (heq : first ++ delimiter :: firstRest = second ++ delimiter :: secondRest) :
    first = second ∧ firstRest = secondRest := by
  induction first generalizing second with
  | nil =>
    cases second with
    | nil => exact ⟨rfl, (List.cons.inj heq).2⟩
    | cons symbol second =>
      have hsymbol := (List.cons.inj heq).1
      rw [← hsymbol, List.count_nil, List.count_cons_self] at hcount
      exact absurd hcount (Nat.succ_ne_zero _).symm
  | cons symbol first ih =>
    cases second with
    | nil =>
      have hsymbol := (List.cons.inj heq).1
      rw [hsymbol, List.count_nil, List.count_cons_self] at hcount
      exact absurd hcount (Nat.succ_ne_zero _)
    | cons other second =>
      obtain ⟨rfl, hrest⟩ := List.cons.inj heq
      rw [List.count_cons, List.count_cons, Nat.add_right_cancel_iff] at hcount
      obtain ⟨rfl, hrests⟩ := ih hcount hrest
      exact ⟨rfl, hrests⟩

/-- The first fields of two equal joins agree when they contain the delimiter equally often. -/
theorem intercalate_cons_inj {first second : List Symbol} {firsts seconds : List (List Symbol)}
    (hfirsts : firsts ≠ []) (hseconds : seconds ≠ [])
    (hcount : first.count delimiter = second.count delimiter)
    (heq : [delimiter].intercalate (first :: firsts) =
      [delimiter].intercalate (second :: seconds)) :
    first = second ∧ [delimiter].intercalate firsts = [delimiter].intercalate seconds := by
  rw [List.intercalate_cons_of_ne_nil hfirsts, List.intercalate_cons_of_ne_nil hseconds,
    List.append_assoc, List.append_assoc] at heq
  exact append_cons_inj_of_count hcount heq

/-- Fields without the delimiter are determined by their join. -/
theorem intercalate_inj_of_notMem {firsts seconds : List (List Symbol)} (hfirsts : firsts ≠ [])
    (hseconds : seconds ≠ []) (hfirst : ∀ field ∈ firsts, delimiter ∉ field)
    (hsecond : ∀ field ∈ seconds, delimiter ∉ field)
    (heq : [delimiter].intercalate firsts = [delimiter].intercalate seconds) :
    firsts = seconds := by
  rw [← List.splitOn_intercalate delimiter hfirst hfirsts, heq,
    List.splitOn_intercalate delimiter hsecond hseconds]

/-- Fields are determined by their join and the number of delimiters in each. -/
theorem intercalate_inj_of_count {firsts seconds : List (List Symbol)}
    (hcount : firsts.map (List.count delimiter) = seconds.map (List.count delimiter))
    (heq : [delimiter].intercalate firsts = [delimiter].intercalate seconds) :
    firsts = seconds := by
  induction firsts generalizing seconds with
  | nil =>
    rw [List.map_nil, eq_comm, List.map_eq_nil_iff] at hcount
    exact hcount.symm
  | cons first firsts ih =>
    cases seconds with
    | nil => cases hcount
    | cons second seconds =>
      obtain ⟨hfirst, hrest⟩ := List.cons.inj hcount
      have hlength := congrArg List.length hrest
      rw [List.length_map, List.length_map] at hlength
      cases firsts with
      | nil =>
        obtain rfl := List.eq_nil_of_length_eq_zero hlength.symm
        simpa [List.intercalate] using heq
      | cons next firsts =>
        have hseconds : seconds ≠ [] := by
          rintro rfl
          cases hlength
        obtain ⟨rfl, hjoin⟩ := intercalate_cons_inj (List.cons_ne_nil _ _) hseconds hfirst heq
        rw [ih hrest hjoin]

/-! ### Cutting at one delimiter -/

/-- The parts of a text before and behind its first delimiter. -/
def splitFirst (delimiter : Symbol) : List Symbol → Option (List Symbol × List Symbol)
  | [] => none
  | symbol :: rest =>
    if symbol = delimiter then some ([], rest)
    else (splitFirst delimiter rest).map fun parts ↦ (symbol :: parts.1, parts.2)

/-- The parts of a text before and behind its last delimiter. -/
def splitLast (delimiter : Symbol) (text : List Symbol) : Option (List Symbol × List Symbol) :=
  (splitFirst delimiter text.reverse).map fun parts ↦ (parts.2.reverse, parts.1.reverse)

theorem splitFirst_eq_some_iff {text before after : List Symbol} :
    splitFirst delimiter text = some (before, after) ↔
      text = before ++ delimiter :: after ∧ delimiter ∉ before := by
  induction text generalizing before with
  | nil => simp [splitFirst]
  | cons symbol rest ih =>
    rw [splitFirst]
    split_ifs with hsymbol
    · subst hsymbol
      constructor
      · rintro ⟨⟩
        exact ⟨rfl, List.not_mem_nil⟩
      · rintro ⟨heq, hnotMem⟩
        cases before with
        | nil => rw [(List.cons.inj heq).2]
        | cons first before =>
          exact absurd ((List.cons.inj heq).1 ▸ List.mem_cons_self) hnotMem
    · constructor
      · intro hsplit
        obtain ⟨⟨front, _⟩, hrest, ⟨⟩⟩ := Option.map_eq_some_iff.mp hsplit
        obtain ⟨rfl, hnotMem⟩ := ih.mp hrest
        exact ⟨rfl, List.not_mem_cons_of_ne_of_not_mem (Ne.symm hsymbol) hnotMem⟩
      · rintro ⟨heq, hnotMem⟩
        cases before with
        | nil => exact absurd (List.cons.inj heq).1 hsymbol
        | cons first before =>
          obtain ⟨rfl, hrest⟩ := List.cons.inj heq
          rw [ih.mpr ⟨hrest, fun hmem ↦ hnotMem (List.mem_cons_of_mem _ hmem)⟩, Option.map_some]

theorem splitLast_eq_some_iff {text before after : List Symbol} :
    splitLast delimiter text = some (before, after) ↔
      text = before ++ delimiter :: after ∧ delimiter ∉ after := by
  rw [splitLast, Option.map_eq_some_iff]
  constructor
  · rintro ⟨⟨back, front⟩, hsplit, ⟨⟩⟩
    obtain ⟨heq, hnotMem⟩ := splitFirst_eq_some_iff.mp hsplit
    refine ⟨?_, fun hmem ↦ hnotMem (List.mem_reverse.mp hmem)⟩
    rw [← List.reverse_reverse text, heq, List.reverse_append, List.reverse_cons,
      List.append_assoc, List.singleton_append]
  · rintro ⟨rfl, hnotMem⟩
    refine ⟨(after.reverse, before.reverse), splitFirst_eq_some_iff.mpr ⟨?_, ?_⟩, ?_⟩
    · rw [List.reverse_append, List.reverse_cons, List.append_assoc, List.singleton_append]
    · exact fun hmem ↦ hnotMem (List.mem_reverse.mp hmem)
    · rw [List.reverse_reverse, List.reverse_reverse]

end PomboStorageNode.Library.Delimited
