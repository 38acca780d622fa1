import MediaCache.Proofs.Json.Read
import MediaCache.Proofs.Store.Read
import MediaCache.Proofs.Store.Stored

/-!
# Snapshots as text

A snapshot that was read from text is printed as text that reads back. A cache that is restored from one
can be saved again: its objects have ids, its keys are in order, its numbers can be written, and its
values leave room for the three brackets that a snapshot opens around them.
-/

namespace MediaCache

namespace Snapshot

/-! ## Reading text -/

/-- What can be read from text where so many brackets may be open in a value and in a shape. In a file
three are open around a value, and two around a shape. -/
structure Textual (values shapes : Written.Limit) (s : Snapshot) : Prop where
  objects : ∀ id r, s.objects.get? id = some r → ∀ key v, r.get? key = some v → v.Textual values
  selections : ∀ name shape, s.selections.get? name = some shape → shape.Textual shapes

theorem of_readMap? {α : Type} {read : Written → Option α} {fields : List (Option String × Written)}
    {m : SortedMap String α} (h : readMap? read fields = some m) {key : String} {v : α}
    (hv : m.get? key = some v) : ∃ e ∈ fields, read e.2 = some v := by
  obtain ⟨entries, hentries, hm⟩ := Option.bind_eq_some_iff.1 h
  cases hm
  obtain ⟨e, he, hread⟩ := Cache.mem_of_mapM hentries _ (SortedMap.mem_of_get?_ofList hv)
  obtain ⟨name, -, hvalue⟩ := Option.bind_eq_some_iff.1 hread
  obtain ⟨found, hfound, heq⟩ := Option.bind_eq_some_iff.1 hvalue
  cases heq
  exact ⟨e, he, hfound⟩

theorem textual_of_objects? {w : Written} (hw : w.Legible) {objects : SortedMap String Record}
    (h : objects? (some 126) w = some objects) {id : String} {r : Record}
    (hr : objects.get? id = some r) : ∀ key v, r.get? key = some v → v.Textual (some 124) := by
  unfold objects? at h
  split at h
  · rename_i fields
    obtain ⟨inner, hinner, hread⟩ := Option.bind_eq_some_iff.1 h
    cases hinner
    obtain ⟨e, he, hrecord⟩ := of_readMap? hread hr
    obtain ⟨v, hv, hmembers⟩ := Option.bind_eq_some_iff.1 hrecord
    have htextual := Written.textual_of_value? e.2 (Written.legibleFields_iff.1 hw e he) hv
    split at hmembers
    · cases hmembers
      exact fun key v hkey => Written.textual_member rfl htextual _ (SortedMap.mem_of_get?_ofList hkey)
    · cases hmembers
  · cases h

theorem textual_of_selections? {w : Written} {selections : SortedMap String Shape}
    (h : selections? (some 126) w = some selections) {name : String} {shape : Shape}
    (hshape : selections.get? name = some shape) : shape.Textual (some 125) := by
  unfold selections? at h
  split at h
  · rename_i fields
    obtain ⟨inner, hinner, hread⟩ := Option.bind_eq_some_iff.1 h
    cases hinner
    obtain ⟨e, -, he⟩ := of_readMap? hread hshape
    exact Shape.textual_of_ofWritten? e.2 he
  · cases h

theorem textual_of_ofWritten? {w : Written} (hw : w.Legible) {s : Snapshot}
    (h : ofWritten? .text w = some s) : s.Textual (some 124) (some 125) := by
  have hnone : ∀ name shape, (∅ : SortedMap String Shape).get? name = some shape →
      shape.Textual (some 125) := fun name shape hshape => by cases hshape
  unfold ofWritten? at h
  split at h
  · -- An object with members by name.
    rename_i fields
    obtain ⟨inner, hinner, hread⟩ := Option.bind_eq_some_iff.1 h
    cases hinner
    split at hread
    · cases hread
    · obtain ⟨found, hfound, hsome⟩ := Option.bind_eq_some_iff.1 hread
      obtain ⟨written, hwritten, hnext⟩ := Option.bind_eq_some_iff.1 hsome
      obtain ⟨objects, hobjects, hrest⟩ := Option.bind_eq_some_iff.1 hnext
      obtain ⟨shapes, -, hdone⟩ := Option.bind_eq_some_iff.1 hrest
      obtain ⟨e, he, heq⟩ := Written.mem_of_single? (hwritten ▸ hfound)
      have hlegible : written.Legible := heq ▸ Written.legibleFields_iff.1 hw e he
      have hstored := fun (id : String) (r : Record) (hr : objects.get? id = some r) =>
        textual_of_objects? hlegible hobjects hr
      cases shapes with
      | none =>
        cases hdone
        exact ⟨hstored, hnone⟩
      | some other =>
        obtain ⟨selections, hselections, hend⟩ := Option.bind_eq_some_iff.1 hdone
        cases hend
        exact ⟨hstored, fun name shape hshape => textual_of_selections? hselections hshape⟩
  · -- A list of the objects alone.
    obtain ⟨inner, hinner, hread⟩ := Option.bind_eq_some_iff.1 h
    cases hinner
    obtain ⟨objects, hobjects, hdone⟩ := Option.bind_eq_some_iff.1 hread
    cases hdone
    exact ⟨fun id r hr => textual_of_objects? hw.1 hobjects hr, hnone⟩
  · -- A list of both.
    obtain ⟨inner, hinner, hread⟩ := Option.bind_eq_some_iff.1 h
    cases hinner
    obtain ⟨objects, hobjects, hnext⟩ := Option.bind_eq_some_iff.1 hread
    obtain ⟨selections, hselections, hdone⟩ := Option.bind_eq_some_iff.1 hnext
    cases hdone
    exact ⟨fun id r hr => textual_of_objects? hw.1 hobjects hr,
      fun name shape hshape => textual_of_selections? hselections hshape⟩
  · cases h

theorem textual_of_parse? {text : String} {s : Snapshot} (h : parse? text = some s) :
    s.Textual (some 124) (some 125) := by
  obtain ⟨w, hw, hs⟩ := Option.bind_eq_some_iff.1 h
  exact textual_of_ofWritten? (Written.legible_of_parse? hw) hs

/-! ## Printing text -/

variable {values shapes : Written.Limit} {s : Snapshot}

theorem Textual.sorted (h : s.Textual values shapes) : s.Sorted :=
  ⟨fun id r hr key v hv => (h.objects id r hr key v hv).sorted,
    fun name shape hshape => (h.selections name shape hshape).sorted⟩

theorem textual_map {α : Type} {m : SortedMap String α} {form : α → Json} {limit inner : Written.Limit}
    (henter : Written.Limit.enter? limit = some inner)
    (h : ∀ key v, m.get? key = some v → (form v).Textual inner) :
    (Json.object (m.entries.map fun e => (e.1, form e.2))).Textual limit := by
  refine Written.textual_object henter (m.ordered.mapValues form) fun e he => ?_
  obtain ⟨entry, hentry, rfl⟩ := List.mem_map.1 he
  exact h entry.1 entry.2 ((m.get?_eq_some_iff_mem _ _).2 hentry)

theorem Textual.toJson (h : s.Textual values shapes) {limit members : Written.Limit}
    (hlimit : Written.Limit.enter? limit = some members)
    (hmembers : Written.Limit.enter? members = some shapes)
    (hshapes : Written.Limit.enter? shapes = some values) : s.toJson.Textual limit := by
  have hobjects :
      (Json.object (s.objects.entries.map fun e => (e.1, e.2.toJson))).Textual members := by
    refine textual_map hmembers fun id r hr => Written.textual_object hshapes r.ordered fun e he => ?_
    exact h.objects id r hr e.1 e.2 ((r.get?_eq_some_iff_mem _ _).2 he)
  have hselections :
      (Json.object (s.selections.entries.map fun e => (e.1, e.2.toJson))).Textual members :=
    textual_map hmembers fun name shape hshape =>
      Shape.textual_toJson shape (h.selections name shape hshape)
  rw [Snapshot.toJson]
  split
  · exact Written.textual_object hlimit (List.pairwise_singleton _ _)
      (List.forall_mem_singleton.2 hobjects)
  · refine Written.textual_object hlimit ?_
      (List.forall_mem_cons.2 ⟨hobjects, List.forall_mem_singleton.2 hselections⟩)
    have hkeys : compare "objects" "selections" = .lt := by decide +kernel
    exact List.pairwise_cons.2 ⟨List.forall_mem_singleton.2 hkeys, List.pairwise_singleton _ _⟩

/-- The text is this snapshot, however many brackets are open in it. -/
def Shown (s : Snapshot) (text : String) : Prop :=
  (Written.parse? text).bind (ofWritten? none) = some s

variable {spaces : List Char}

/-- A snapshot is read back from its text, and white space at the end does not matter. -/
theorem Textual.parse?_render (h : s.Textual (some 124) (some 125))
    (hspaces : ∀ c ∈ spaces, Json.Scanner.isSpace c = true) :
    parse? (s.render ++ String.ofList spaces) = some s := by
  have hjson : s.toJson.Textual .text := h.toJson rfl rfl rfl
  rw [parse?, render, Written.parse?_pretty hjson.legible hspaces, Option.bind_some]
  exact ofWritten?_toJson h.sorted hjson.depth

theorem Textual.shown_render (h : s.Textual none none)
    (hspaces : ∀ c ∈ spaces, Json.Scanner.isSpace c = true) :
    s.Shown (s.render ++ String.ofList spaces) := by
  have hjson : s.toJson.Textual none := h.toJson rfl rfl rfl
  rw [Shown, render, Written.parse?_pretty hjson.legible hspaces, Option.bind_some]
  exact ofWritten?_toJson h.sorted hjson.depth

end Snapshot

namespace Cache

/-! ## Caches that can be saved -/

/-- The snapshot of the cache can be printed, read back and restored. -/
structure Storable (c : Cache) : Prop where
  indexed : c.Indexed
  keyed : c.Keyed
  stores : c.Stores (Json.Textual (some 124))
  records : c.Records (Shape.Textual (some 125))

variable {c d : Cache}

theorem Storable.extract (h : c.Storable) : c.extract.Textual (some 124) (some 125) :=
  ⟨h.stores.extract, h.records⟩

/-- The snapshot of the cache can be printed, and read back where brackets are not counted. -/
structure Printable (c : Cache) : Prop where
  stores : c.Stores (Json.Textual none)
  records : c.Records (Shape.Textual none)

theorem Printable.extract (h : c.Printable) : c.extract.Textual none none :=
  ⟨h.stores.extract, h.records⟩

theorem Storable.printable (h : c.Storable) : c.Printable where
  stores := ⟨fun name v hv => (h.stores.root name v hv).unbounded,
    fun id r hr key v hv => (h.stores.objects id r hr key v hv).unbounded⟩
  records name shape hshape := (h.records name shape hshape).unbounded

theorem of_restoreObject {id : String} {record stored : Record} {obj : ObjectRef}
    (h : restoreObject id record = .ok (obj, stored)) :
    obj.id ≠ "" ∧ stored.get? "__typename" = some (.string obj.typename.name) ∧
      ∀ key v, stored.get? key = some v → record.get? key = some v ∨ ∃ s, v = .string s := by
  rw [restoreObject] at h
  cases hparse : ObjectRef.parse id with
  | error e =>
    rw [hparse] at h
    cases h
  | ok parsed =>
    have hid : parsed.id ≠ "" := (ObjectRef.cacheId_of_parse hparse).2
    rw [hparse] at h
    simp only at h
    split at h
    · -- The type is filled in from the key.
      cases h
      refine ⟨hid, SortedMap.get?_insert_self _ _ _, fun key v hv => ?_⟩
      rw [SortedMap.get?_insert] at hv
      split at hv
      · cases hv
        exact .inr ⟨_, rfl⟩
      · exact .inl hv
    · rename_i found hfound
      split at h
      · rename_i htype
        -- The record names the type of its key.
        cases h
        exact ⟨hid, htype ▸ hfound, fun key v hv => .inl hv⟩
      · cases h

theorem of_restoreEntry {good : Json → Prop} (htext : ∀ s, good (.string s)) (hc : c.Keyed)
    (hstores : c.Stores good) {id : String} {record : Record}
    (hrecord : ∀ key v, record.get? key = some v → good v) (h : c.restoreEntry id record = .ok d) :
    d.Keyed ∧ d.Stores good ∧ d.policies = c.policies ∧ d.retained = c.retained := by
  rw [restoreEntry] at h
  split at h
  · -- The entry is the root.
    cases h
    exact ⟨hc.of_same rfl, ⟨hrecord, hstores.objects⟩, rfl, rfl⟩
  · cases hfound : restoreObject id record with
    | error e =>
      rw [hfound] at h
      cases h
    | ok found =>
      obtain ⟨obj, stored⟩ := found
      obtain ⟨hid, htype, hmembers⟩ := of_restoreObject hfound
      have hkey := cacheId_of_restoreObject hfound
      rw [hfound] at h
      cases h
      refine ⟨fun key r hr => ?_, ⟨hstores.root, fun key r hr => ?_⟩, rfl, rfl⟩
      · simp only [SortedMap.get?_insert] at hr
        split at hr
        · rename_i heq
          cases hr
          exact ⟨obj, hkey.trans heq.symm, hid, htype⟩
        · exact hc key r hr
      · simp only [SortedMap.get?_insert] at hr
        split at hr
        · cases hr
          intro name v hv
          rcases hmembers name v hv with hv | ⟨s, rfl⟩
          · exact hrecord name v hv
          · exact htext s
        · exact hstores.objects key r hr

theorem of_restoreEntries {good : Json → Prop} (htext : ∀ s, good (.string s))
    {entries : List (String × Record)}
    (hentries : ∀ e ∈ entries, ∀ key v, e.2.get? key = some v → good v) {c d : Cache} (hc : c.Keyed)
    (hstores : c.Stores good)
    (h : entries.foldlM (fun c e => c.restoreEntry e.1 e.2) c = .ok d) :
    d.Keyed ∧ d.Stores good ∧ d.policies = c.policies ∧ d.retained = c.retained := by
  induction entries generalizing c with
  | nil =>
    cases h
    exact ⟨hc, hstores, rfl, rfl⟩
  | cons e rest ih =>
    obtain ⟨hfirst, hrest⟩ := List.forall_mem_cons.1 hentries
    rw [List.foldlM_cons] at h
    cases he : c.restoreEntry e.1 e.2 with
    | error err =>
      rw [he] at h
      cases h
    | ok next =>
      rw [he] at h
      obtain ⟨hnext, hnextStores, hpolicies, hretained⟩ := of_restoreEntry htext hc hstores hfirst he
      obtain ⟨hd, hdStores, hpolicies', hretained'⟩ := ih hrest hnext hnextStores h
      exact ⟨hd, hdStores, hpolicies'.trans hpolicies, hretained'.trans hretained⟩

theorem storable_of_restore {s : Snapshot} (hs : s.Textual (some 124) (some 125))
    (h : d.restore s = .ok c) :
    c.Storable ∧ c.policies = d.policies ∧ c.retained = ∅ := by
  have hindexed := Indexed.restore h
  rw [Cache.restore] at h
  cases hrestored : s.objects.entries.foldlM (fun c e => c.restoreEntry e.1 e.2) d.reset with
  | error e =>
    rw [hrestored] at h
    cases h
  | ok restored =>
    rw [hrestored] at h
    cases h
    have hentries : ∀ e ∈ s.objects.entries, ∀ key v, e.2.get? key = some v → v.Textual (some 124) :=
      fun e he => hs.objects e.1 e.2 ((s.objects.get?_eq_some_iff_mem _ _).2 he)
    obtain ⟨hkeyed, hstores, hpolicies, hretained⟩ :=
      of_restoreEntries (Written.textual_text _) hentries (keyed_new _) (stores_new _ _) hrestored
    exact ⟨⟨hindexed, hkeyed.of_same rfl, ⟨hstores.root, hstores.objects⟩, hs.selections⟩, hpolicies,
      hretained⟩

/-- A cache that can be saved is restored from the text of its snapshot. -/
theorem Storable.restore_parse? (h : c.Storable) (hpolicies : d.policies = c.policies)
    (hretained : c.retained = ∅) {spaces : List Char}
    (hspaces : ∀ c ∈ spaces, Json.Scanner.isSpace c = true) :
    ∃ s, Snapshot.parse? (c.extract.render ++ String.ofList spaces) = some s ∧ d.restore s = .ok c := by
  refine ⟨c.extract, h.extract.parse?_render hspaces, ?_⟩
  rw [h.keyed.restore_extract h.indexed d, hpolicies, ← hretained]

end Cache

end MediaCache
