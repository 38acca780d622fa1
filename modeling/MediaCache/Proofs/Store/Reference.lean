import MediaCache.Proofs.Data.SortedMap
import MediaCache.Store.Reference

/-!
# Cache ids name their objects

No type name holds a colon, so a cache id splits back into the type and the id it was made from.
-/

namespace MediaCache

theorem splitFirst?_append {c : Char} {l : List Char} (h : c ∉ l) (m : List Char) :
    splitFirst? c (l ++ c :: m) = some (l, m) := by
  have hne : ∀ x ∈ l, (x != c) = true := by
    intro x hx
    rw [bne_iff_ne]
    rintro rfl
    exact h hx
  rw [splitFirst?, List.dropWhile_append_of_pos hne, List.takeWhile_append_of_pos hne]
  simp

theorem eq_append_of_splitFirst? {c : Char} {s l m : List Char} (h : splitFirst? c s = some (l, m)) :
    s = l ++ c :: m := by
  rw [splitFirst?] at h
  cases hd : s.dropWhile (· != c) with
  | nil =>
    rw [hd] at h
    cases h
  | cons x rest =>
    rw [hd] at h
    have hx : x = c := by
      have := List.head?_dropWhile_not (· != c) s
      rw [hd] at this
      simpa using this
    have hs := List.takeWhile_append_dropWhile (p := (· != c)) (l := s)
    simp only [Option.some.injEq, Prod.mk.injEq] at h
    rw [← hs, hd, h.1, h.2, hx]

theorem not_mem_of_splitFirst? {c : Char} {s l m : List Char} (h : splitFirst? c s = some (l, m)) :
    c ∉ l := by
  rw [splitFirst?] at h
  cases hd : s.dropWhile (· != c) with
  | nil =>
    rw [hd] at h
    cases h
  | cons x rest =>
    rw [hd] at h
    simp only [Option.some.injEq, Prod.mk.injEq] at h
    intro hc
    rw [← h.1] at hc
    simpa using List.all_eq_true.1 (List.all_takeWhile (p := (· != c)) (l := s)) c hc

theorem Typename.colon_not_mem_name (t : Typename) : ':' ∉ t.name.toList := by
  cases t <;> decide

theorem Typename.name_inj {s t : Typename} (h : s.name = t.name) : s = t := by
  have := ofName?_name s
  rw [h, ofName?_name] at this
  simpa using this.symm

@[simp]
theorem Typename.parse_name (t : Typename) : Typename.parse t.name = .ok t := by
  rw [Typename.parse, ofName?_name]

theorem Typename.name_of_parse {s : String} {t : Typename} (h : Typename.parse s = .ok t) :
    t.name = s := by
  rw [Typename.parse] at h
  split at h
  · rename_i hs
    cases h
    exact name_of_ofName? hs
  · cases h

namespace ObjectRef

@[simp]
theorem toList_cacheId (o : ObjectRef) :
    o.cacheId.toList = o.typename.name.toList ++ ':' :: o.id.toList := by
  simp [cacheId]

@[simp]
theorem splitFirst?_cacheId (o : ObjectRef) :
    splitFirst? ':' o.cacheId.toList = some (o.typename.name.toList, o.id.toList) := by
  rw [toList_cacheId, splitFirst?_append o.typename.colon_not_mem_name]

theorem cacheId_inj {o p : ObjectRef} (h : o.cacheId = p.cacheId) : o = p := by
  have hs := splitFirst?_cacheId o
  rw [h, splitFirst?_cacheId] at hs
  simp only [Option.some.injEq, Prod.mk.injEq, String.toList_inj] at hs
  obtain ⟨t, id⟩ := o
  obtain ⟨u, jd⟩ := p
  obtain rfl : u = t := Typename.name_inj hs.1
  obtain rfl : jd = id := hs.2
  rfl

@[simp]
theorem cacheId_eq_iff {o p : ObjectRef} : o.cacheId = p.cacheId ↔ o = p :=
  ⟨cacheId_inj, fun h => h ▸ rfl⟩

theorem ofCacheId?_cacheId (o : ObjectRef) :
    ofCacheId? o.cacheId = if o.id = "" then none else some o := by
  rw [ofCacheId?, parse, splitFirst?_cacheId]
  cases hid : o.id.toList with
  | nil =>
    have : o.id = "" := by simpa using hid
    simp [this, Except.toOption]
  | cons c rest =>
    have hne : o.id ≠ "" := by
      intro he
      simp [he] at hid
    have hback : String.ofList (c :: rest) = o.id := by rw [← hid, String.ofList_toList]
    simp only [String.ofList_toList, Typename.parse_name, hne, hback, if_false]
    rfl

theorem cacheId_of_ofCacheId? {s : String} {o : ObjectRef} (h : ofCacheId? s = some o) :
    o.cacheId = s ∧ o.id ≠ "" := by
  rw [ofCacheId?, parse] at h
  split at h
  · cases h
  · cases h
  · rename_i t id hid hs
    cases ht : Typename.parse (String.ofList t) with
    | error e =>
      rw [ht] at h
      cases h
    | ok u =>
      rw [ht] at h
      have ho : (⟨u, String.ofList id⟩ : ObjectRef) = o := Option.some.inj h
      subst ho
      constructor
      · rw [← String.toList_inj, toList_cacheId, Typename.name_of_parse ht,
          eq_append_of_splitFirst? hs]
        simp
      · intro he
        apply hid
        simpa using he

theorem ofCacheId?_eq_some_iff {s : String} {o : ObjectRef} :
    ofCacheId? s = some o ↔ s = o.cacheId ∧ o.id ≠ "" := by
  constructor
  · intro h
    exact ⟨(cacheId_of_ofCacheId? h).1.symm, (cacheId_of_ofCacheId? h).2⟩
  · rintro ⟨rfl, h⟩
    rw [ofCacheId?_cacheId, if_neg h]

theorem parse_of_colon {name key : String} (hcolon : ':' ∉ name.toList) (hkey : key ≠ "") :
    parse (name ++ ":" ++ key) = (Typename.parse name).map fun t => ⟨t, key⟩ := by
  have hsplit : splitFirst? ':' (name ++ ":" ++ key).toList = some (name.toList, key.toList) := by
    rw [← splitFirst?_append hcolon]
    simp
  rw [parse, hsplit]
  cases hlist : key.toList with
  | nil => exact absurd (by simpa using hlist) hkey
  | cons first rest =>
    have hback : String.ofList (first :: rest) = key := by rw [← hlist, String.ofList_toList]
    simp only [String.ofList_toList, hback]
    rfl

/-- Nothing stands behind the first colon, or there is none. -/
def Unkeyed (s : String) : Prop := ∀ name key, ':' ∉ name.toList → s = name ++ ":" ++ key → key = ""

theorem parse_of_unkeyed {s : String} (h : Unkeyed s) : parse s = .error (.malformedCacheId s) := by
  rw [parse]
  split
  · rfl
  · rfl
  · rename_i name key hkey hfirst
    have hs : s = String.ofList name ++ ":" ++ String.ofList key := by
      rw [← String.toList_inj, eq_append_of_splitFirst? hfirst]
      simp
    have hcolon : ':' ∉ (String.ofList name).toList := by
      rw [String.toList_ofList]
      exact not_mem_of_splitFirst? hfirst
    exact absurd (by simpa using congrArg String.toList (h _ _ hcolon hs)) hkey

theorem cacheId_of_parse {s : String} {o : ObjectRef} (h : parse s = .ok o) : o.cacheId = s ∧ o.id ≠ "" :=
  cacheId_of_ofCacheId? (by rw [ofCacheId?, h]; rfl)

theorem parse_cacheId {o : ObjectRef} (h : o.id ≠ "") : parse o.cacheId = .ok o := by
  rw [cacheId, parse_of_colon o.typename.colon_not_mem_name h, Typename.parse_name]
  rfl

@[simp]
theorem referenceId?_toReference (o : ObjectRef) : referenceId? o.toReference = some o.cacheId := by
  simp [toReference, reference, referenceId?]

end ObjectRef

theorem eq_reference_of_referenceId? {v : Json} {id : String} (h : referenceId? v = some id) :
    v = reference id := by
  unfold referenceId? at h
  split at h
  · split at h
    · rename_i hkey
      cases h
      rw [hkey, reference]
    · cases h
  · cases h

@[simp]
theorem referenceId?_reference (id : String) : referenceId? (reference id) = some id := by
  simp [reference, referenceId?]

end MediaCache
