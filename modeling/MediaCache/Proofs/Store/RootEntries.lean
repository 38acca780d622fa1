import MediaCache.Proofs.Data.SortedMap
import MediaCache.Store.Change

/-!
# Root entries one by one

A change of a root field acts on each entry of the field by itself and leaves all other entries and
every stored object alone. An entry is its data together with its shape.
-/

namespace MediaCache

namespace Cache

def entry (c : Cache) (name : String) : Option Json × Option Shape :=
  (c.root.get? name, c.selections.get? name)

/-- Nothing but root entries differs. -/
structure SameStore (c c' : Cache) : Prop where
  policies : c'.policies = c.policies
  objects : c'.objects = c.objects
  index : c'.index = c.index
  retained : c'.retained = c.retained

/-- Nothing but stored objects differs. -/
structure SameRoot (c c' : Cache) : Prop where
  policies : c'.policies = c.policies
  root : c'.root = c.root
  selections : c'.selections = c.selections
  retained : c'.retained = c.retained

theorem SameStore.refl (c : Cache) : SameStore c c := ⟨rfl, rfl, rfl, rfl⟩

theorem SameStore.trans {a b c : Cache} (h : SameStore a b) (h' : SameStore b c) : SameStore a c :=
  ⟨h'.policies.trans h.policies, h'.objects.trans h.objects, h'.index.trans h.index,
    h'.retained.trans h.retained⟩

theorem SameRoot.refl (c : Cache) : SameRoot c c := ⟨rfl, rfl, rfl, rfl⟩

theorem SameRoot.trans {a b c : Cache} (h : SameRoot a b) (h' : SameRoot b c) : SameRoot a c :=
  ⟨h'.policies.trans h.policies, h'.root.trans h.root, h'.selections.trans h.selections,
    h'.retained.trans h.retained⟩

theorem SameRoot.eq_of_objects {c c' : Cache} (h : SameRoot c c') (hobjects : c'.objects = c.objects)
    (hindex : c'.index = c.index) : c' = c := by
  obtain ⟨hpolicies, hroot, hselections, hretained⟩ := h
  cases c
  cases c'
  simp only at hpolicies hroot hselections hretained hobjects hindex
  subst hpolicies hroot hselections hretained hobjects hindex
  rfl

theorem SameRoot.entry {c c' : Cache} (h : SameRoot c c') (name : String) :
    c'.entry name = c.entry name := by
  rw [Cache.entry, h.root, h.selections, Cache.entry]

end Cache

def FieldUpdate.onEntry : FieldUpdate → Option Json × Option Shape → Option Json × Option Shape
  | .keep, e => e
  | .set v, e => (some v, e.2)
  | .delete, _ => (none, none)

namespace Cache

theorem sameStore_applyToEntry (c : Cache) (name : String) (u : FieldUpdate) :
    SameStore c (c.applyToEntry name u) := by
  cases u <;> exact ⟨rfl, rfl, rfl, rfl⟩

theorem entry_applyToEntry (c : Cache) (name : String) (u : FieldUpdate) (j : String) :
    (c.applyToEntry name u).entry j = if j = name then u.onEntry (c.entry j) else c.entry j := by
  cases u with
  | keep => simp [applyToEntry, FieldUpdate.onEntry]
  | set v => by_cases h : j = name <;> simp [applyToEntry, FieldUpdate.onEntry, entry, h]
  | delete => by_cases h : j = name <;> simp [applyToEntry, FieldUpdate.onEntry, entry, h]

theorem entry_foldl_applyToEntry (updates : List (String × FieldUpdate))
    (hnodup : (updates.map (·.1)).Nodup) (c : Cache) (name : String) :
    (updates.foldl (fun c u => c.applyToEntry u.1 u.2) c).entry name =
      match Assoc.get? name updates with
      | some u => u.onEntry (c.entry name)
      | none => c.entry name := by
  induction updates generalizing c with
  | nil => rfl
  | cons update rest ih =>
    obtain ⟨j, u⟩ := update
    rw [List.map_cons, List.nodup_cons] at hnodup
    rw [List.foldl_cons, ih hnodup.2, entry_applyToEntry]
    by_cases h : name = j
    · subst h
      -- The name is written once, so the rest of the updates leaves it alone.
      rw [Assoc.get?_eq_none_iff.2 hnodup.1, Assoc.get?_cons_self, if_pos rfl]
    · rw [Assoc.get?_cons_of_ne h, if_neg h]

theorem sameStore_foldl_applyToEntry (updates : List (String × FieldUpdate)) (c : Cache) :
    SameStore c (updates.foldl (fun c u => c.applyToEntry u.1 u.2) c) := by
  induction updates generalizing c with
  | nil => exact SameStore.refl c
  | cons u rest ih => exact (sameStore_applyToEntry c u.1 u.2).trans (ih _)

theorem sameStore_modifyRoot (c : Cache) (field : String) (change : String → Json → FieldUpdate) :
    SameStore c (c.modifyRoot field change).2 :=
  sameStore_foldl_applyToEntry _ c

theorem get?_rootEntries (c : Cache) (field name : String) :
    Assoc.get? name (c.rootEntries field) =
      if baseFieldName name = field then c.root.get? name else none := by
  rw [rootEntries, c.root.ordered.get?_filter, SortedMap.get?]
  by_cases h : baseFieldName name = field <;> cases Assoc.get? name c.root.entries <;>
    simp [h, Option.filter]

theorem mem_rootEntries_iff {c : Cache} {field name : String} {v : Json} :
    (name, v) ∈ c.rootEntries field ↔ baseFieldName name = field ∧ c.root.get? name = some v := by
  rw [rootEntries, List.mem_filter, beq_iff_eq, and_comm, SortedMap.get?_eq_some_iff_mem]

theorem get?_map_value {β γ : Type} (f : String → β → γ) (l : List (String × β)) (name : String) :
    Assoc.get? name (l.map fun e => (e.1, f e.1 e.2)) = (Assoc.get? name l).map (f name) := by
  induction l with
  | nil => rfl
  | cons e l ih =>
    obtain ⟨j, v⟩ := e
    rw [List.map_cons]
    by_cases h : name = j
    · subst h
      rw [Assoc.get?_cons_self, Assoc.get?_cons_self]
      rfl
    · rw [Assoc.get?_cons_of_ne h, Assoc.get?_cons_of_ne h, ih]

theorem nodup_rootEntries (c : Cache) (field : String) :
    ((c.rootEntries field).map (·.1)).Nodup :=
  (c.root.ordered.filter _).nodup_keys

theorem entry_modifyRoot (c : Cache) (field : String) (change : String → Json → FieldUpdate)
    (name : String) :
    (c.modifyRoot field change).2.entry name =
      if baseFieldName name = field then
        match c.root.get? name with
        | some v => (change name v).onEntry (c.entry name)
        | none => c.entry name
      else c.entry name := by
  have hkeys : (((c.rootEntries field).map fun e => (e.1, change e.1 e.2)).map (·.1)).Nodup := by
    rw [List.map_map]
    exact nodup_rootEntries c field
  rw [modifyRoot, entry_foldl_applyToEntry _ hkeys, get?_map_value, get?_rootEntries]
  by_cases h : baseFieldName name = field
  · simp only [if_pos h]
    cases c.root.get? name <;> rfl
  · simp only [if_neg h]
    rfl

/-- What stands at the root after a change stood there before, or is what the change made of it. -/
theorem root_modifyRoot {c : Cache} {field : String} {change : String → Json → FieldUpdate}
    {name : String} {v : Json} (h : (c.modifyRoot field change).2.root.get? name = some v) :
    c.root.get? name = some v ∨ ∃ old, c.root.get? name = some old ∧ change name old = .set v := by
  have hentry := congrArg Prod.fst (entry_modifyRoot c field change name)
  have hnew : (c.modifyRoot field change).2.entry name = (some v, _) := Prod.ext h rfl
  rw [hnew] at hentry
  split at hentry
  · cases hold : c.root.get? name with
    | none =>
      simp only [hold, entry] at hentry
      cases hentry
    | some old =>
      simp only [hold] at hentry
      cases hu : change name old with
      | keep =>
        simp only [hu, FieldUpdate.onEntry, entry, hold] at hentry
        exact .inl hentry.symm
      | set w =>
        simp only [hu, FieldUpdate.onEntry] at hentry
        cases hentry
        exact .inr ⟨old, rfl, hu⟩
      | delete =>
        simp only [hu, FieldUpdate.onEntry] at hentry
        cases hentry
  · exact .inl hentry.symm

theorem selections_modifyRoot {c : Cache} {field : String} {change : String → Json → FieldUpdate}
    {name : String} {shape : Shape}
    (h : (c.modifyRoot field change).2.selections.get? name = some shape) :
    c.selections.get? name = some shape := by
  have hentry := congrArg Prod.snd (entry_modifyRoot c field change name)
  have hnew : (c.modifyRoot field change).2.entry name = (_, some shape) := Prod.ext rfl h
  rw [hnew] at hentry
  split at hentry
  · split at hentry
    · rename_i old _
      cases hu : change name old with
      | delete =>
        rw [hu] at hentry
        cases hentry
      | _ =>
        rw [hu] at hentry
        exact hentry.symm
    · exact hentry.symm
  · exact hentry.symm

theorem sameStore_evictRoot (c : Cache) (field : String) : SameStore c (c.evictRoot field).2 :=
  sameStore_modifyRoot c field _

/-- Evicting a root field removes each of its entries with its shape. A shape without data stays. -/
theorem entry_evictRoot (c : Cache) (field name : String) :
    (c.evictRoot field).2.entry name =
      if baseFieldName name = field ∧ (c.entry name).1.isSome then (none, none)
      else c.entry name := by
  rw [evictRoot, entry_modifyRoot]
  by_cases h : baseFieldName name = field
  · cases hv : c.root.get? name <;> simp [h, entry, hv, FieldUpdate.onEntry]
  · simp [h]

end Cache

end MediaCache
