/-!
# Tables

A system is made of a fixed number of objects of each kind. `Table α n` holds a value for each of `n` of them; its
entries are read and written by number, and every number below `n` has one.
-/

namespace Rtos
set_option autoImplicit false

/-- A value for every number below `n`. -/
structure Table (α : Type) (n : Nat) where
  entries : Vector α n
  deriving DecidableEq

namespace Table

variable {α : Type} {n : Nat}

/-- The table that holds the same value everywhere. -/
def replicate (n : Nat) (value : α) : Table α n := ⟨Vector.replicate n value⟩

/-- The table of the values of a function. -/
def ofFn (f : Fin n → α) : Table α n := ⟨Vector.ofFn f⟩

/-- The entry with a number. -/
def get (t : Table α n) (i : Fin n) : α := t.entries.get i

instance : GetElem (Table α n) (Fin n) α (fun _ _ => True) where
  getElem t i _ := t.get i

/-- Replace the entry with a number. -/
def set (t : Table α n) (i : Fin n) (value : α) : Table α n := ⟨t.entries.set i value⟩

/-- The entries, in ascending order. -/
def toList (t : Table α n) : List α := t.entries.toList

/-! ## Reading and writing -/

@[ext] theorem ext {s t : Table α n} (h : ∀ i : Fin n, s[i] = t[i]) : s = t := by
  have he : s.entries = t.entries := Vector.ext fun i hi => h ⟨i, hi⟩
  cases s; cases t
  exact congrArg Table.mk he

@[simp] theorem getElem_replicate (value : α) (i : Fin n) : (replicate n value)[i] = value :=
  Vector.getElem_replicate i.isLt

@[simp] theorem getElem_ofFn (f : Fin n → α) (i : Fin n) : (ofFn f)[i] = f i := Vector.getElem_ofFn i.isLt

@[simp] theorem getElem_set_self (t : Table α n) (i : Fin n) (value : α) : (t.set i value)[i] = value :=
  Vector.getElem_set_self i.isLt

theorem getElem_set_of_ne (t : Table α n) {i j : Fin n} (value : α) (h : j ≠ i) : (t.set i value)[j] = t[j] :=
  Vector.getElem_set_ne i.isLt j.isLt fun he => h (Fin.ext he.symm)

@[simp] theorem set_set (t : Table α n) (i : Fin n) (value value' : α) :
    (t.set i value).set i value' = t.set i value' := by
  ext j
  by_cases h : j = i
  · subst h
    rw [getElem_set_self, getElem_set_self]
  · rw [getElem_set_of_ne _ _ h, getElem_set_of_ne _ _ h, getElem_set_of_ne _ _ h]

theorem set_comm (t : Table α n) {i j : Fin n} (value value' : α) (h : i ≠ j) :
    (t.set i value).set j value' = (t.set j value').set i value := by
  ext l
  by_cases hi : l = i
  · rw [hi, getElem_set_of_ne _ _ h, getElem_set_self, getElem_set_self]
  · by_cases hj : l = j
    · rw [hj, getElem_set_self, getElem_set_of_ne _ _ h.symm, getElem_set_self]
    · rw [getElem_set_of_ne _ _ hj, getElem_set_of_ne _ _ hi, getElem_set_of_ne _ _ hi, getElem_set_of_ne _ _ hj]

theorem set_getElem (t : Table α n) (i : Fin n) : t.set i t[i] = t := by
  ext j
  by_cases h : j = i
  · rw [h, getElem_set_self]
  · rw [getElem_set_of_ne _ _ h]

@[simp] theorem toList_set (t : Table α n) (i : Fin n) (value : α) :
    (t.set i value).toList = t.toList.set i value := Vector.toList_set i.isLt

theorem getElem?_toList (t : Table α n) (i : Fin n) : t.toList[i.val]? = some t[i] :=
  (Vector.getElem?_toList ..).trans (Vector.getElem?_eq_getElem i.isLt)

end Table

end Rtos
