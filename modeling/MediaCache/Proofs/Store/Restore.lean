import MediaCache.Proofs.Store.Runs

/-!
# What restore accepts

Restoring checks each key of a snapshot in order, and the object under it. The whole snapshot is taken
over when all of them pass, with the types filled in that objects leave out. Otherwise the error is about
the first that does not.
-/

namespace MediaCache

/-- The key names an object of a known type by an id that is not empty, and the record does not say
otherwise about the type. -/
def WellKeyed (id : String) (r : Record) : Prop :=
  ∃ obj : ObjectRef, obj.cacheId = id ∧ obj.id ≠ "" ∧
    ∀ t ∈ r.get? "__typename", t = .string obj.typename.name

inductive Offends (id : String) (r : Record) : SnapshotError → Prop where
  | malformed (h : ObjectRef.Unkeyed id) : Offends id r (.schema (.malformedCacheId id))
  | unknownType {name key : String} (hid : id = name ++ ":" ++ key) (hcolon : ':' ∉ name.toList)
      (hkey : key ≠ "") (hname : ∀ t : Typename, t.name ≠ name) :
      Offends id r (.schema (.unknownTypename name))
  | otherType {obj : ObjectRef} {found : Json} (hid : id = obj.cacheId) (hkey : obj.id ≠ "")
      (hfound : r.get? "__typename" = some found) (hne : found ≠ .string obj.typename.name) :
      Offends id r (.typenameMismatch id found.asString? obj.typename)

/-- The record with the type of its key, if it names none. -/
def Record.completed (id : String) (r : Record) : Record :=
  match ObjectRef.ofCacheId? id, r.get? "__typename" with
  | some obj, none => r.insert "__typename" (.string obj.typename.name)
  | _, _ => r

theorem Record.completed_of_typed {id : String} {r : Record} {t : Json}
    (h : r.get? "__typename" = some t) : r.completed id = r := by
  rw [completed, h]
  cases ObjectRef.ofCacheId? id <;> rfl

/-- The snapshot with an empty root if it has none, and with the types that objects leave out. -/
def Snapshot.completed (s : Snapshot) : Snapshot :=
  ⟨.ofList ((rootKey, ∅) :: s.objects.entries.map fun e => (e.1, e.2.completed e.1)), s.selections⟩

namespace Cache

/-! ## One object -/

theorem restoreObject_of_wellKeyed {id : String} {r : Record} (h : WellKeyed id r) :
    ∃ obj, restoreObject id r = .ok (obj, r.completed id) := by
  obtain ⟨obj, rfl, hkey, htype⟩ := h
  refine ⟨obj, ?_⟩
  rw [restoreObject, ObjectRef.parse_cacheId hkey, Record.completed, ObjectRef.ofCacheId?_cacheId,
    if_neg hkey]
  cases hfound : r.get? "__typename" with
  | none => rfl
  | some found =>
    simp only [htype found hfound, if_true]

theorem restoreObject_of_offends {id : String} {r : Record} {e : SnapshotError} (h : Offends id r e) :
    restoreObject id r = .error e := by
  rw [restoreObject]
  cases h with
  | malformed hunkeyed => rw [ObjectRef.parse_of_unkeyed hunkeyed]
  | @unknownType name key hid hcolon hkey hname =>
    have hparse : Typename.parse name = .error (.unknownTypename name) := by
      rw [Typename.parse]
      split
      · rename_i t ht
        exact absurd (Typename.name_of_ofName? ht) (hname t)
      · rfl
    rw [hid, ObjectRef.parse_of_colon hcolon hkey, hparse]
    rfl
  | otherType hid hkey hfound hne =>
    subst hid
    rw [ObjectRef.parse_cacheId hkey]
    simp only [hfound, if_neg hne]

theorem wellKeyed_or_offends (id : String) (r : Record) : WellKeyed id r ∨ ∃ e, Offends id r e := by
  by_cases hunkeyed : ObjectRef.Unkeyed id
  · exact .inr ⟨_, .malformed hunkeyed⟩
  simp only [ObjectRef.Unkeyed, not_forall] at hunkeyed
  obtain ⟨name, key, hcolon, hid, hkey⟩ := hunkeyed
  by_cases hname : ∃ t : Typename, t.name = name
  · obtain ⟨t, rfl⟩ := hname
    by_cases htype : ∀ found ∈ r.get? "__typename", found = .string t.name
    · exact .inl ⟨⟨t, key⟩, hid.symm, hkey, htype⟩
    · simp only [not_forall] at htype
      obtain ⟨found, hfound, hne⟩ := htype
      exact .inr ⟨_, @Offends.otherType id r ⟨t, key⟩ found hid hkey hfound hne⟩
  · exact .inr ⟨_, .unknownType hid hcolon hkey (not_exists.1 hname)⟩

/-! ## All objects in order -/

theorem restoreEntry_of_wellKeyed {id : String} {r : Record} (hroot : id ≠ Snapshot.rootKey)
    (h : WellKeyed id r) (c : Cache) : ∃ index, c.restoreEntry id r =
      .ok { c with objects := c.objects.insert id (r.completed id), index := index } := by
  obtain ⟨obj, hok⟩ := restoreObject_of_wellKeyed h
  refine ⟨indexAdd c.index obj.typename id, ?_⟩
  rw [restoreEntry, if_neg hroot, hok]
  rfl

theorem restoreEntry_of_offends {id : String} {r : Record} {e : SnapshotError}
    (hroot : id ≠ Snapshot.rootKey) (h : Offends id r e) (c : Cache) :
    c.restoreEntry id r = .error e := by
  rw [restoreEntry, if_neg hroot, restoreObject_of_offends h]
  rfl

theorem restoreEntries_of_wellKeyed {entries : List (String × Record)}
    (h : ∀ e ∈ entries, e.1 ≠ Snapshot.rootKey → WellKeyed e.1 e.2) (c : Cache) :
    ∃ d, entries.foldlM (fun c e => c.restoreEntry e.1 e.2) c = .ok d ∧ d.policies = c.policies ∧
      d.retained = c.retained ∧
      d.root = (Assoc.get? Snapshot.rootKey entries.reverse).getD c.root ∧
      ∀ id, d.objects.get? id =
        if id = Snapshot.rootKey then c.objects.get? id
        else ((Assoc.get? id entries.reverse).map (·.completed id)).or (c.objects.get? id) := by
  induction entries generalizing c with
  | nil =>
    refine ⟨c, rfl, rfl, rfl, rfl, fun id => ?_⟩
    split <;> rfl
  | cons e rest ih =>
    obtain ⟨key, r⟩ := e
    obtain ⟨hfirst, hrest⟩ := List.forall_mem_cons.1 h
    rw [List.foldlM_cons]
    by_cases hroot : key = Snapshot.rootKey
    · -- The root takes the record as it is, and later entries with this key take its place.
      subst hroot
      obtain ⟨d, hd, hpolicies, hretained, hdroot, hobjects⟩ := ih hrest { c with root := r }
      refine ⟨d, ?_, hpolicies, hretained, ?_, fun id => ?_⟩
      · rw [restoreEntry, if_pos rfl]
        exact hd
      · rw [hdroot, Assoc.get?_reverse_cons, if_pos rfl]
        cases Assoc.get? Snapshot.rootKey rest.reverse <;> rfl
      · rw [hobjects]
        split
        · rfl
        · rename_i hne
          rw [Assoc.get?_reverse_cons, if_neg hne, Option.or_none]
    · -- An object is stored under its key, and a later entry with this key wins.
      obtain ⟨index, hstep⟩ := restoreEntry_of_wellKeyed hroot (hfirst hroot) c
      obtain ⟨d, hd, hpolicies, hretained, hdroot, hobjects⟩ := ih hrest
        { c with objects := c.objects.insert key (r.completed key), index := index }
      refine ⟨d, ?_, hpolicies, hretained, ?_, fun id => ?_⟩
      · rw [hstep]
        exact hd
      · rw [hdroot, Assoc.get?_reverse_cons, if_neg (Ne.symm hroot), Option.or_none]
      · rw [hobjects]
        split
        · rename_i hid
          exact SortedMap.get?_insert_of_ne _ (fun heq => hroot (heq.symm.trans hid)) _
        · rw [Assoc.get?_reverse_cons, Option.map_or, Option.or_assoc, SortedMap.get?_insert]
          split
          · rename_i hid
            rw [hid]
            rfl
          · rfl

end Cache

/-! ## Whole snapshots -/

namespace Snapshot

def Accepted (s : Snapshot) : Prop :=
  ∀ id r, s.objects.get? id = some r → id ≠ rootKey → WellKeyed id r

/-- The error is about the first object, in the order of the keys, that is not well keyed. -/
def Refused (s : Snapshot) (e : SnapshotError) : Prop :=
  ∃ id r, s.objects.get? id = some r ∧ id ≠ rootKey ∧ Offends id r e ∧
    ∀ j q, s.objects.get? j = some q → j ≠ rootKey → compare j id = .lt → WellKeyed j q

theorem accepted_or_refused (s : Snapshot) : s.Accepted ∨ ∃ e, s.Refused e := by
  classical
  cases hfind : s.objects.entries.find? fun e => ¬(e.1 ≠ rootKey → WellKeyed e.1 e.2) with
  | none =>
    refine .inl fun id r hr hroot => ?_
    have hnone := List.find?_eq_none.1 hfind (id, r) ((s.objects.get?_eq_some_iff_mem id r).1 hr)
    simp only [decide_eq_true_eq, not_not] at hnone
    exact hnone hroot
  | some found =>
    obtain ⟨id, r⟩ := found
    obtain ⟨hbad, before, after, hentries, hbefore⟩ := List.find?_eq_some_iff_append.1 hfind
    simp only [decide_eq_true_eq, Classical.not_imp] at hbad
    obtain ⟨e, he⟩ := (Cache.wellKeyed_or_offends id r).resolve_left hbad.2
    have hmem : (id, r) ∈ s.objects.entries := by
      rw [hentries]
      exact List.mem_append_right _ List.mem_cons_self
    refine .inr ⟨e, id, r, (s.objects.get?_eq_some_iff_mem id r).2 hmem, hbad.1, he, ?_⟩
    intro j q hq hroot hlt
    have hordered := s.objects.ordered
    have hj := (s.objects.get?_eq_some_iff_mem j q).1 hq
    rw [hentries] at hordered hj
    have hgood := hbefore (j, q) ((hordered.mem_before_iff hj).2 hlt)
    simp only [Bool.not_eq_true', decide_eq_false_iff_not, not_not] at hgood
    exact hgood hroot

theorem get?_completed (s : Snapshot) (id : String) :
    s.completed.objects.get? id =
      if id = rootKey then some ((s.objects.get? id).getD ∅)
      else (s.objects.get? id).map (·.completed id) := by
  have hentries : Assoc.get? id (s.objects.entries.map fun e => (e.1, e.2.completed e.1)).reverse =
      (s.objects.get? id).map (·.completed id) := by
    rw [← List.map_reverse, Assoc.get?_map_keyed fun id (r : Record) => r.completed id,
      Assoc.get?_reverse s.objects.nodup_keys]
    rfl
  have hlookup : s.completed.objects.get? id =
      ((s.objects.get? id).map (·.completed id)).or (if id = rootKey then some ∅ else none) := by
    rw [← hentries, ← Assoc.get?_reverse_cons]
    exact SortedMap.get?_ofList _ id
  rw [hlookup]
  split
  · rename_i hid
    rw [hid]
    cases s.objects.get? rootKey <;> rfl
  · exact Option.or_none

end Snapshot

namespace Cache

/-- An accepted snapshot is what the restored cache holds, except for what was missing from it. -/
theorem restore_of_accepted {s : Snapshot} (h : s.Accepted) (c : Cache) :
    ∃ d, c.restore s = .ok d ∧ d.extract = s.completed ∧ d.policies = c.policies ∧ d.retained = ∅ := by
  have hentries : ∀ e ∈ s.objects.entries, e.1 ≠ Snapshot.rootKey → WellKeyed e.1 e.2 := fun e he =>
    h e.1 e.2 ((s.objects.get?_eq_some_iff_mem e.1 e.2).2 he)
  obtain ⟨d, hd, hpolicies, hretained, hroot, hobjects⟩ := restoreEntries_of_wellKeyed hentries c.reset
  have hrestore : c.restore s = .ok { d with selections := s.selections } := by
    rw [restore, hd]
    rfl
  have hlookup (id : String) : Assoc.get? id s.objects.entries.reverse = s.objects.get? id :=
    Assoc.get?_reverse s.objects.nodup_keys id
  refine ⟨_, hrestore, ?_, hpolicies, hretained⟩
  have hextract : ({ d with selections := s.selections } : Cache).extract.objects =
      s.completed.objects := by
    ext id : 1
    rw [extract, SortedMap.get?_insert, Snapshot.get?_completed]
    split
    · rename_i hid
      rw [hroot, hlookup, hid]
      rfl
    · rename_i hid
      rw [hobjects, if_neg hid, hlookup]
      exact Option.or_none
  exact congrArg (Snapshot.mk · s.selections) hextract

theorem get?_of_extract {d : Cache} {s : Snapshot} (h : d.extract = s.completed) {id : String}
    (hid : id ≠ Snapshot.rootKey) : d.objects.get? id = (s.objects.get? id).map (·.completed id) := by
  have hget := s.get?_completed id
  rw [← h, if_neg hid] at hget
  rw [← hget]
  exact (SortedMap.get?_insert_of_ne d.objects hid d.root).symm

theorem cacheId_ne_rootKey (obj : ObjectRef) : obj.cacheId ≠ Snapshot.rootKey := by
  intro h
  have hcolon : ':' ∈ obj.cacheId.toList := by
    rw [ObjectRef.toList_cacheId]
    exact List.mem_append_right _ List.mem_cons_self
  rw [h] at hcolon
  exact absurd hcolon (by decide)

theorem restore_of_refused {s : Snapshot} {e : SnapshotError} (h : s.Refused e) (c : Cache) :
    c.restore s = .error e := by
  obtain ⟨id, r, hr, hroot, hoffends, hsmaller⟩ := h
  obtain ⟨before, after, hentries⟩ := List.append_of_mem ((s.objects.get?_eq_some_iff_mem id r).1 hr)
  have hordered := s.objects.ordered
  rw [hentries] at hordered
  have hbefore : ∀ f ∈ before, f.1 ≠ Snapshot.rootKey → WellKeyed f.1 f.2 := by
    intro f hf hfroot
    have hmem : f ∈ before ++ (id, r) :: after := List.mem_append_left _ hf
    refine hsmaller f.1 f.2 ?_ hfroot ((hordered.mem_before_iff hmem).1 hf)
    rw [SortedMap.get?_eq_some_iff_mem, hentries]
    exact hmem
  obtain ⟨d, hd, -⟩ := restoreEntries_of_wellKeyed hbefore c.reset
  have hfail : s.objects.entries.foldlM (fun c e => c.restoreEntry e.1 e.2) c.reset = .error e := by
    rw [hentries, List.foldlM_append, hd]
    simp only [List.foldlM_cons, bind, Except.bind, restoreEntry_of_offends hroot hoffends]
  rw [restore, hfail]
  rfl

theorem accepted_of_restore {c d : Cache} {s : Snapshot} (h : c.restore s = .ok d) : s.Accepted := by
  refine s.accepted_or_refused.resolve_right ?_
  rintro ⟨e, he⟩
  rw [restore_of_refused he] at h
  cases h

theorem refused_of_restore {c : Cache} {s : Snapshot} {e : SnapshotError} (h : c.restore s = .error e) :
    s.Refused e := by
  rcases s.accepted_or_refused with haccepted | ⟨e', he'⟩
  · obtain ⟨d, hd, -⟩ := restore_of_accepted haccepted c
    rw [hd] at h
    cases h
  · rw [restore_of_refused he'] at h
    cases h
    exact he'

theorem mem_indexed_of_extract {d : Cache} {s : Snapshot} (hd : d.Indexed) (h : d.extract = s.completed)
    (t : Typename) (id : String) : id ∈ d.indexed t ↔
      s.objects.contains id = true ∧ ∃ key, (⟨t, key⟩ : ObjectRef).cacheId = id := by
  rw [mem_indexed_iff, hd.listed]
  refine and_congr_left ?_
  rintro ⟨key, rfl⟩
  rw [SortedMap.contains, get?_of_extract h (cacheId_ne_rootKey _), Option.isSome_map, SortedMap.contains]

/-- A snapshot is taken over or refused as a whole. It is taken over exactly when all objects in it are
well keyed; then it is what the cache holds, with an empty root if there was none and the types filled in
that were left out, and the index lists its keys by type. Otherwise the error is about the first object
that is not well keyed, and the cache stays as it is. -/
theorem restore_exact (c : Cache) (s : Snapshot) :
    ((∃ d, c.restore s = .ok d) ↔ s.Accepted) ∧
    (∀ d, c.restore s = .ok d →
      d.extract = s.completed ∧ d.policies = c.policies ∧ d.retained = ∅ ∧
      (∀ t id, id ∈ d.indexed t ↔
        s.objects.contains id = true ∧ ∃ key, (⟨t, key⟩ : ObjectRef).cacheId = id) ∧
      ∀ t ids, d.index.get? t = some ids → ids.isEmpty = false) ∧
    ∀ e, (c.restore s = .error e ↔ s.Refused e) ∧
      (c.restore s = .error e → (Op.restore s).run c = c) := by
  refine ⟨⟨fun ⟨d, hd⟩ => accepted_of_restore hd, fun h => ?_⟩, fun d hd => ?_, fun e =>
    ⟨⟨refused_of_restore, fun h => restore_of_refused h c⟩, fun he => ?_⟩⟩
  · obtain ⟨d, hd, -⟩ := restore_of_accepted h c
    exact ⟨d, hd⟩
  · obtain ⟨d', hd', hextract, hpolicies, hretained⟩ := restore_of_accepted (accepted_of_restore hd) c
    obtain rfl : d' = d := Except.ok.inj (hd'.symm.trans hd)
    have hindexed := Indexed.restore hd
    refine ⟨hextract, hpolicies, hretained, mem_indexed_of_extract hindexed hextract, ?_⟩
    intro t ids hids
    exact (SortedMap.isEmpty_eq_false_iff _).2 (hindexed.nonempty t ids hids)
  · rw [Op.run, he]

end Cache

end MediaCache
