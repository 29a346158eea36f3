import Mathlib

/-!
# Words joined with a separator

Words joined with a separator that occurs in none of them.  The words can be
read back by splitting, so the joined string tells them, and it tells the
empty list from the rest when no word is empty.
-/

namespace UTTG.Separated

variable {Symbol : Type*} {separator : Symbol}

/-- The separator occurs in no word. -/
def Free (separator : Symbol) (words : List (List Symbol)) : Prop :=
  ∀ word ∈ words, separator ∉ word

theorem Free.append {left right : List (List Symbol)}
    (hleft : Free separator left) (hright : Free separator right) :
    Free separator (left ++ right) :=
  fun word hmem => (List.mem_append.mp hmem).elim (hleft word) (hright word)

theorem intercalate_eq_nil_iff {words : List (List Symbol)}
    (hnonempty : ∀ word ∈ words, word ≠ []) :
    [separator].intercalate words = [] ↔ words = [] := by
  constructor
  · intro hnil
    cases words with
    | nil => rfl
    | cons first rest =>
        have hfirst := hnonempty first List.mem_cons_self
        cases rest with
        | nil =>
            rw [List.intercalate_singleton] at hnil
            exact absurd hnil hfirst
        | cons second rest =>
            rw [List.intercalate_cons_cons, List.append_assoc] at hnil
            exact absurd (List.append_eq_nil_iff.mp hnil).1 hfirst
  · rintro rfl
    rfl

/-- Another symbol that no word has is not in the joined string either. -/
theorem notMem_intercalate {other : Symbol} {words : List (List Symbol)}
    (hne : other ≠ separator) (hfree : Free other words) :
    other ∉ [separator].intercalate words := by
  induction words with
  | nil => exact List.not_mem_nil
  | cons first rest ih =>
      obtain ⟨hfirst, hrest⟩ := List.forall_mem_cons.mp hfree
      cases rest with
      | nil => rwa [List.intercalate_singleton]
      | cons second rest =>
          rw [List.intercalate_cons_cons]
          simp only [List.mem_append, List.mem_singleton, not_or]
          exact ⟨⟨hfirst, hne⟩, ih hrest⟩

section Reading

variable [DecidableEq Symbol]

/-- The joined string tells the words when there are any. -/
theorem intercalate_inj {left right : List (List Symbol)}
    (hleft : Free separator left) (hright : Free separator right)
    (hleftNonempty : left ≠ []) (hrightNonempty : right ≠ []) :
    [separator].intercalate left = [separator].intercalate right ↔
      left = right := by
  constructor
  · intro heq
    have hsplit := congrArg (List.splitOn separator) heq
    rwa [List.splitOn_intercalate separator hleft hleftNonempty,
      List.splitOn_intercalate separator hright hrightNonempty] at hsplit
  · exact congrArg _

/-- Strings are cut alike at a separator that no cut-off part has. -/
theorem append_cons_inj {left right leftRest rightRest : List Symbol}
    (hleft : separator ∉ left) (hright : separator ∉ right)
    (heq : left ++ separator :: leftRest = right ++ separator :: rightRest) :
    left = right ∧ leftRest = rightRest := by
  have hsplit := congrArg (List.splitOn separator) heq
  rw [List.splitOn_append_cons_self, List.splitOn_append_cons_self,
    List.splitOn_eq_singleton hleft, List.splitOn_eq_singleton hright] at hsplit
  obtain rfl := (List.cons.inj hsplit).1
  exact ⟨rfl, (List.cons.inj (List.append_cancel_left heq)).2⟩

/-- What starts with a word before a separator has that word first. -/
theorem eq_of_intercalate_cons {first word rest : List Symbol}
    {words : List (List Symbol)} (hfree : Free separator (first :: words))
    (hword : separator ∉ word)
    (heq : [separator].intercalate (first :: words) =
      word ++ separator :: rest) : first = word := by
  have hsplit := congrArg (List.splitOn separator) heq
  rw [List.splitOn_intercalate separator hfree (List.cons_ne_nil _ _),
    List.splitOn_append_cons_self, List.splitOn_eq_singleton hword] at hsplit
  exact (List.cons.inj hsplit).1

/-- The joined string tells any list of words that are not empty. -/
theorem intercalate_inj_of_nonempty {left right : List (List Symbol)}
    (hleft : Free separator left) (hright : Free separator right)
    (hleftWords : ∀ word ∈ left, word ≠ [])
    (hrightWords : ∀ word ∈ right, word ≠ [])
    (heq : [separator].intercalate left = [separator].intercalate right) :
    left = right := by
  by_cases hnil : left = []
  · have hjoined : [separator].intercalate left = [] :=
      (intercalate_eq_nil_iff hleftWords).mpr hnil
    rw [heq, intercalate_eq_nil_iff hrightWords] at hjoined
    rw [hnil, hjoined]
  · have hne : right ≠ [] := by
      rintro rfl
      exact hnil ((intercalate_eq_nil_iff hleftWords).mp heq)
    exact (intercalate_inj hleft hright hnil hne).mp heq

end Reading

end UTTG.Separated
