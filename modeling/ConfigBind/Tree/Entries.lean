/-!
# Entry lists in key order

A map with text keys is the list of its entries in ascending key order, at most one entry a key.
`Entries.insert` keeps that order, and the last value inserted under a key is the one that stays.
-/

namespace ConfigBind.Entries

variable {α : Type}

def insert (key : String) (value : α) : List (String × α) → List (String × α)
  | [] => [(key, value)]
  | (k, v) :: rest =>
    if key < k then (key, value) :: (k, v) :: rest
    else if key = k then (key, value) :: rest
    else (k, v) :: insert key value rest

/-- The entries with all of `added` inserted, in order. -/
def insertAll (entries added : List (String × α)) : List (String × α) :=
  added.foldl (fun acc (key, value) => insert key value acc) entries

def ofList (pairs : List (String × α)) : List (String × α) := insertAll [] pairs

def get? (key : String) (entries : List (String × α)) : Option α := entries.lookup key

theorem insertAll_append (entries xs ys : List (String × α)) :
    insertAll entries (xs ++ ys) = insertAll (insertAll entries xs) ys := by
  simp [insertAll, List.foldl_append]

theorem get?_insert_self (key : String) (value : α) (entries : List (String × α)) :
    get? key (insert key value entries) = some value := by
  induction entries with
  | nil => simp [insert, get?]
  | cons e rest ih =>
    obtain ⟨k, v⟩ := e
    simp only [get?] at ih
    by_cases h : key = k
    · subst h
      have hlt : ¬ key < key := String.lt_irrefl key
      simp only [insert, if_neg hlt, if_true, get?, List.lookup_cons, beq_self_eq_true]
    · by_cases hlt : key < k
      · simp [insert, get?, hlt]
      · have hne : (key == k) = false := by simpa using h
        simp [insert, get?, hlt, h, List.lookup_cons, hne, ih]

end ConfigBind.Entries
