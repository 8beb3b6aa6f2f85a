/-!
# Tables kept as lists of entries

A table is a list of keys with what they are bound to, and is read by `List.lookup`.
A key is bound anew by dropping every entry of it and putting the new one in front.
What was bound to other keys is found as before.
-/

namespace TapeMips.Entries

variable {α β : Type} [BEq α]

/-- The entries of all keys but one. -/
def without (entries : List (α × β)) (key : α) : List (α × β) :=
  entries.filter (·.1 != key)

/-- The entries with a key bound anew. -/
def bind (entries : List (α × β)) (key : α) (value : β) : List (α × β) :=
  (key, value) :: without entries key

variable [LawfulBEq α]

theorem lookup_without_self (entries : List (α × β)) (key : α) :
    (without entries key).lookup key = none := by
  rw [List.lookup_eq_none_iff]
  intro entry hentry
  have hne : entry.1 ≠ key := by simpa using (List.mem_filter.mp hentry).2
  simpa using Ne.symm hne

theorem lookup_without_ne (entries : List (α × β)) {key other : α} (h : other ≠ key) :
    (without entries key).lookup other = entries.lookup other := by
  induction entries with
  | nil => rfl
  | cons entry rest ih =>
      obtain ⟨k, v⟩ := entry
      rw [without] at ih ⊢
      by_cases hkey : k = key
      · subst hkey
        have hne : (other == k) = false := beq_false_of_ne h
        rw [List.filter_cons_of_neg (by simp), List.lookup_cons, hne, ih]
      · rw [List.filter_cons_of_pos (by simpa using hkey), List.lookup_cons,
          List.lookup_cons, ih]

@[simp]
theorem lookup_bind_self (entries : List (α × β)) (key : α) (value : β) :
    (bind entries key value).lookup key = some value := by
  rw [bind, List.lookup_cons_self]

theorem lookup_bind_ne (entries : List (α × β)) {key other : α} (h : other ≠ key)
    (value : β) : (bind entries key value).lookup other = entries.lookup other := by
  have hne : (other == key) = false := beq_false_of_ne h
  rw [bind, List.lookup_cons, hne]
  exact lookup_without_ne entries h

end TapeMips.Entries
