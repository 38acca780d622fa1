import MediaCache.Data.Assoc

/-!
# Maps with ascending keys

Two maps with the same values at every key are equal, so a whole cache can be compared by what a
look-up in it shows. `SortedSet` is the map with nothing at its keys.
-/

namespace MediaCache

structure SortedMap (α β : Type) [Ord α] where
  entries : List (α × β)
  ordered : Assoc.Ordered entries := by exact Assoc.ordered_nil

namespace SortedMap

variable {α β γ : Type} [Ord α]

instance [DecidableEq α] [DecidableEq β] : DecidableEq (SortedMap α β) := fun m n =>
  if h : m.entries = n.entries then
    isTrue (by cases m; cases n; subst h; rfl)
  else
    isFalse fun he => h (congrArg entries he)

def empty : SortedMap α β := ⟨[], Assoc.ordered_nil⟩

instance : EmptyCollection (SortedMap α β) := ⟨empty⟩

instance : Inhabited (SortedMap α β) := ⟨empty⟩

def get? (m : SortedMap α β) (k : α) : Option β := Assoc.get? k m.entries

def contains (m : SortedMap α β) (k : α) : Bool := (m.get? k).isSome

def size (m : SortedMap α β) : Nat := m.entries.length

def isEmpty (m : SortedMap α β) : Bool := m.entries.isEmpty

def keys (m : SortedMap α β) : List α := m.entries.map (·.1)

def values (m : SortedMap α β) : List β := m.entries.map (·.2)

def erase (m : SortedMap α β) (k : α) : SortedMap α β := ⟨_, m.ordered.erase k⟩

def filter (m : SortedMap α β) (p : α → β → Bool) : SortedMap α β :=
  ⟨_, m.ordered.filter fun e => p e.1 e.2⟩

def mapValues (m : SortedMap α β) (f : β → γ) : SortedMap α γ := ⟨_, m.ordered.mapValues f⟩

variable [Std.TransOrd α]

def insert (m : SortedMap α β) (k : α) (v : β) : SortedMap α β := ⟨_, m.ordered.insert k v⟩

def insertAll (m : SortedMap α β) (entries : List (α × β)) : SortedMap α β :=
  ⟨_, m.ordered.insertAll entries⟩

def ofList (entries : List (α × β)) : SortedMap α β := ⟨_, Assoc.ordered_ofList entries⟩

/-! ## Laws of look-up -/

section

omit [Std.TransOrd α]

@[simp]
theorem get?_empty (k : α) : (∅ : SortedMap α β).get? k = none := rfl

@[simp]
theorem get?_erase_self (m : SortedMap α β) (k : α) : (m.erase k).get? k = none :=
  Assoc.get?_erase_self k _

theorem get?_erase_of_ne [Std.LawfulEqOrd α] (m : SortedMap α β) {j k : α} (h : j ≠ k) :
    (m.erase k).get? j = m.get? j :=
  Assoc.get?_erase_of_ne h _

end

variable [Std.LawfulEqOrd α]

@[simp]
theorem get?_insert_self (m : SortedMap α β) (k : α) (v : β) : (m.insert k v).get? k = some v :=
  Assoc.get?_insert_self k v _

theorem get?_insert_of_ne (m : SortedMap α β) {j k : α} (h : j ≠ k) (v : β) :
    (m.insert k v).get? j = m.get? j :=
  Assoc.get?_insert_of_ne h v _

@[ext]
theorem ext {m n : SortedMap α β} (h : ∀ k, m.get? k = n.get? k) : m = n := by
  cases m
  cases n
  congr
  exact Assoc.Ordered.ext ‹_› ‹_› h

end SortedMap

abbrev SortedSet (α : Type) [Ord α] := SortedMap α Unit

namespace SortedSet

variable {α : Type} [Ord α]

def toList (s : SortedSet α) : List α := s.keys

variable [Std.TransOrd α]

def add (s : SortedSet α) (a : α) : SortedSet α := s.insert a ()

def addAll (s : SortedSet α) (as : List α) : SortedSet α := s.insertAll (as.map (·, ()))

def ofList (as : List α) : SortedSet α := SortedMap.ofList (as.map (·, ()))

end SortedSet

end MediaCache
