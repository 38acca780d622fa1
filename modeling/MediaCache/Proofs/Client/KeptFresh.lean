import Mathlib.Data.List.Permutation
import MediaCache.Proofs.Client.Refresh
import MediaCache.Proofs.Store.Growth
import MediaCache.Proofs.Store.Rereads
import MediaCache.Proofs.Update.Invalidation

/-!
# When watches are kept fresh

A refresh does not look again at a watch that it has answered, nor at one that was not missing. Each of
them can still be read afterwards as long as the answers agree with what is stored. Where they do not,
the watch is missing again and no report says so.
-/

namespace MediaCache

variable {σ : Type}

/-! ## The entries of two queries -/

/-- Queries that share an entry are about one field. -/
theorem rootField_eq_of_storeFieldName {doc doc' : Document} (h : doc ∈ Document.all)
    (h' : doc' ∈ Document.all) {args args' : Option Json}
    (hname : storeFieldName doc.rootField args = storeFieldName doc'.rootField args') :
    doc.rootField = doc'.rootField := by
  rw [← baseFieldName_storeFieldName (Document.isFieldName_of_mem h) args, hname,
    baseFieldName_storeFieldName (Document.isFieldName_of_mem h') args']

namespace Cache

variable {c : Cache}

theorem entry_writeRoot_of_ne (c : Cache) {field name : String} {args : Option Json} {data : Json}
    (h : name ≠ storeFieldName field args) : (c.writeRoot field args data).entry name = c.entry name := by
  have hsame := sameRoot_storeEntities c data
  unfold writeRoot entry
  simp only [SortedMap.get?_insert_of_ne _ h, hsame.root, hsame.selections]

theorem canRead_writeRoot (c : Cache) (field : String) (args : Option Json) {data : Json}
    (h : referenceId? data = none) : (c.writeRoot field args data).canRead data.normalized = true := by
  cases data with
  | object fields =>
    cases hobj : ObjectRef.identify? (.object fields) with
    | none =>
      rw [(Json.normalized_of_anonymous h hobj).1]
      exact canRead_of_not_reference _ (Json.referenceId?_normalizedFields h)
    | some obj =>
      obtain ⟨hnormalized, hentities⟩ := Json.normalized_of_identified h hobj
      rw [hnormalized, canRead_toReference]
      refine (contains_storeEntities c _ _).2 (.inl ⟨(obj, Json.normalizedFields fields), ?_, rfl⟩)
      rw [hentities]
      exact List.mem_append_right _ List.mem_cons_self
  | _ => exact canRead_of_not_reference _ rfl

/-- A new entry is read the same by all arguments that name it. -/
theorem readRoot_writeRoot_args (c : Cache) (field : String) {args args' : Option Json} {data : Json}
    (h : referenceId? data = none) (hname : storeFieldName field args' = storeFieldName field args) :
    (c.writeRoot field args data).readRoot field args' =
      (c.writeRoot field args data).readRoot field args := by
  have hroot : (c.writeRoot field args data).root.get? (storeFieldName field args) =
      some data.normalized := SortedMap.get?_insert_self _ _ _
  have hcan := c.canRead_writeRoot field args h
  unfold readRoot
  simp only [hname, hroot, Option.filter_some, hcan, if_true]

/-- Where its object is gone, a reference is read by the policy of its field under every shape. -/
theorem readValue_gone {id : String} (h : c.objects.get? id = none) (parent : Option Typename)
    (field : String) (shape : Shape) :
    c.readValue parent field (reference id) shape = c.readDangling parent field := by
  have huntracked : c.readUntracked parent field (reference id) = c.readDangling parent field := by
    rw [readUntracked_of_not_array rfl, referenceId?_reference]
    simp only [h]
  cases shape with
  | leaf => rw [readValue_leaf, huntracked]
  | list element => rw [readValue_list_of_not_array rfl, huntracked]
  | object selected =>
    have hid := referenceId?_reference id
    rw [reference] at hid ⊢
    rw [readValue]
    simp only [hid, h]

theorem readRoot_writeRoot_reference (id field : String) (args : Option Json) :
    ((new .empty).writeRoot field args (reference id)).readRoot field args = .missing := by
  have hisReference : isReference (reference id) = true := by
    rw [isReference, referenceId?_reference]
    rfl
  have hnormalized : (reference id).normalized = reference id := by
    rw [reference] at hisReference ⊢
    rw [Json.normalized, if_pos hisReference]
  have hentities : (reference id).entities = [] := by
    rw [reference] at hisReference ⊢
    rw [Json.entities, if_pos hisReference]
  have hobjects : ((new .empty).writeRoot field args (reference id)).objects.get? id = none := by
    simp [writeRoot, storeEntities, hentities, new]
  have hroot : ((new .empty).writeRoot field args (reference id)).root.get?
      (storeFieldName field args) = some (reference id).normalized := SortedMap.get?_insert_self _ _ _
  have hpolicies : ((new .empty).writeRoot field args (reference id)).policies = .empty := by
    simp [writeRoot, storeEntities, hentities, new]
  generalize (new .empty).writeRoot field args (reference id) = d at hobjects hroot hpolicies ⊢
  have hdangling : d.readDangling none field = none := by
    simp only [readDangling, policyOf, hpolicies, Policies.empty]
  unfold readRoot
  simp only [hroot, hpolicies, Policies.empty, hnormalized, readValue_gone hobjects, hdangling,
    ReadOutcome.ofOption]

end Cache

/-- Data that a query gives can be read by it after it was written, whatever the cache holds. -/
def Watch.Rereads (w : Watch) (data : Json) : Prop :=
  ∀ c : Cache, ∃ v, (c.writeQuery w.doc w.args data).readQuery w.doc w.args = .hit v

/-- A reference cannot be read in a cache that is empty otherwise. -/
theorem Watch.Rereads.not_reference {w : Watch} {data : Json} (h : w.Rereads data) :
    referenceId? data = none := by
  cases hid : referenceId? data with
  | none => rfl
  | some id =>
    obtain rfl := eq_reference_of_referenceId? hid
    obtain ⟨v, hv⟩ := h (.new .empty)
    rw [Cache.writeQuery, Cache.readQuery, Cache.readRoot_writeRoot_reference] at hv
    cases hv

/-! ## Writing the answers -/

namespace Cache

variable {c : Cache}

def Shows (c : Cache) (w : Watch) : Prop := (c.readQuery w.doc w.args).isMissing = false

theorem shows_iff {w : Watch} : c.Shows w ↔ ∃ v, c.readQuery w.doc w.args = .hit v := by
  unfold Shows
  cases c.readQuery w.doc w.args <;> simp [ReadOutcome.isMissing]

/-- An answer shows every watch that shares its entry. -/
theorem shows_writeQuery {w w' : Watch} {data : Json} (h : w.Rereads data)
    (hfield : w'.doc.rootField = w.doc.rootField)
    (hname : storeFieldName w'.doc.rootField w'.args = storeFieldName w.doc.rootField w.args) :
    (c.writeQuery w.doc w.args data).Shows w' := by
  rw [hfield] at hname
  have hread := c.readRoot_writeRoot_args w.doc.rootField h.not_reference hname
  obtain ⟨v, hv⟩ := h c
  refine shows_iff.2 ⟨v, ?_⟩
  rw [readQuery, writeQuery, hfield, hread]
  exact hv

theorem Shows.writeQuery {w w' : Watch} (h : c.Shows w') {data : Json} (hagrees : c.Agrees data)
    (hname : storeFieldName w'.doc.rootField w'.args ≠ storeFieldName w.doc.rootField w.args) :
    (c.writeQuery w.doc w.args data).Shows w' :=
  (hagrees.grows w.doc.rootField w.args).readRoot_hits (c.entry_writeRoot_of_ne hname) h

/-- Each answer agrees with the cache as the answers before it left it. -/
def Accepts (c : Cache) : List Reply → Prop
  | [] => True
  | r :: rest => (∀ data, r.answer = .ok data → c.Agrees data) ∧ (c.writeReply r).Accepts rest

theorem accepts_nil : c.Accepts [] := trivial

theorem accepts_answer {id : Nat} {w : Watch} {data : Json} {rest : List Reply} :
    c.Accepts (⟨id, w, .ok data⟩ :: rest) ↔
      c.Agrees data ∧ (c.writeQuery w.doc w.args data).Accepts rest := by
  simp [Accepts, writeReply]

end Cache

structure Reply.Sound (r : Reply) : Prop where
  known : r.watch.doc ∈ Document.all
  rereads : ∀ data, r.answer = .ok data → r.watch.Rereads data

theorem Cache.Shows.writeReply {c : Cache} {w : Watch} (h : c.Shows w) (hw : w.doc ∈ Document.all)
    {r : Reply} (hr : r.Sound) (hagrees : ∀ data, r.answer = .ok data → c.Agrees data) :
    (c.writeReply r).Shows w := by
  unfold Cache.writeReply
  split
  · rename_i data hdata
    by_cases hname : storeFieldName w.doc.rootField w.args =
        storeFieldName r.watch.doc.rootField r.watch.args
    · exact Cache.shows_writeQuery (hr.rereads data hdata)
        (rootField_eq_of_storeFieldName hw hr.known hname) hname
    · exact h.writeQuery (hagrees data hdata) hname
  · exact h

/-- What the cache shows and what is answered can be read after all answers. -/
theorem Cache.shows_writeReplies {c : Cache} {w : Watch} (hw : w.doc ∈ Document.all)
    {replies : List Reply} (hsound : ∀ r ∈ replies, r.Sound) (haccepts : c.Accepts replies)
    (h : c.Shows w ∨ ∃ r ∈ replies, r.watch = w ∧ r.answer.isOk = true) :
    (c.writeReplies replies).Shows w := by
  induction replies generalizing c with
  | nil =>
    rcases h with h | ⟨r, hr, -⟩
    · exact h
    · cases hr
  | cons r rest ih =>
    obtain ⟨hagrees, hrest⟩ := haccepts
    have hr := hsound r List.mem_cons_self
    refine ih (fun r hr => hsound r (List.mem_cons_of_mem _ hr)) hrest ?_
    rcases h with h | ⟨answered, hmem, rfl, hok⟩
    · exact .inl (h.writeReply hw hr hagrees)
    · rcases List.mem_cons.1 hmem with rfl | hmem
      · left
        unfold Cache.writeReply
        split
        · rename_i data hdata
          exact Cache.shows_writeQuery (hr.rereads data hdata) rfl rfl
        · rename_i e he
          rw [he] at hok
          cases hok
      · exact .inr ⟨answered, hmem, rfl, hok⟩

/-! ## One refresh -/

/-- Each reply is what the transport said of a watch that was due, and each of these has one. -/
theorem Transport.mem_ask (t : Transport σ) (server : σ) (due : List (Nat × Watch)) :
    (∀ r ∈ (t.ask server due).1, (r.id, r.watch) ∈ due ∧
      ∃ asked, (t.query asked r.watch.doc r.watch.args).1 = r.answer) ∧
    ∀ e ∈ due, ∃ r ∈ (t.ask server due).1, r.id = e.1 ∧ r.watch = e.2 := by
  induction due generalizing server with
  | nil => simp [ask]
  | cons e rest ih =>
    obtain ⟨hreplies, hdue⟩ := ih (t.query server e.2.doc e.2.args).2
    rw [ask]
    refine ⟨fun r hr => ?_, fun f hf => ?_⟩
    · rcases List.mem_cons.1 hr with rfl | hr
      · exact ⟨List.mem_cons_self, server, rfl⟩
      · obtain ⟨hmem, hasked⟩ := hreplies r hr
        exact ⟨List.mem_cons_of_mem _ hmem, hasked⟩
    · rcases List.mem_cons.1 hf with rfl | hf
      · exact ⟨_, List.mem_cons_self, rfl, rfl⟩
      · obtain ⟨r, hr, hsame⟩ := hdue f hf
        exact ⟨r, List.mem_cons_of_mem _ hr, hsame⟩

theorem Reply.mem_failed_iff {replies : List Reply} {id : Nat} :
    id ∈ failed replies ↔ ∃ r ∈ replies, r.answer.isOk = false ∧ r.id = id := by
  simp [failed, and_assoc]

namespace Service

/-- Every watch that is not reported as stale can be read. -/
def Fresh (s : Service σ) (report : Refresh) : Prop :=
  ∀ id w, s.watches.get? id = some w → id ∉ report.stale →
    ∃ v, s.cache.readQuery w.doc w.args = .hit v

/-- The watched queries are those of the schema, and the transport gives each an answer that can be read
after it was written into any cache. -/
structure Rereads (s : Service σ) : Prop where
  known : ∀ id w, s.watches.get? id = some w → w.doc ∈ Document.all
  answer : ∀ id w, s.watches.get? id = some w → ∀ server data,
    (s.transport.query server w.doc w.args).1 = .ok data → w.Rereads data

/-- Each answer to a watch that is missing now agrees with what is stored when it comes. -/
def Agrees (s : Service σ) : Prop :=
  s.cache.Accepts (s.transport.ask s.server s.missingWatches).1

theorem agrees_reset_iff (s : Service σ) :
    ({ s with cache := s.cache.reset } : Service σ).Agrees ↔
      (Cache.new s.cache.policies).Accepts (s.transport.ask s.server s.watches.entries).1 := by
  rw [Agrees, missingWatches_of_new rfl]
  rfl

theorem Rereads.fresh {s : Service σ} (h : s.Rereads) (hagrees : s.Agrees) :
    s.refreshWatches.2.Fresh s.refreshWatches.1 := by
  intro id w hw hstale
  rw [refreshWatches_eq] at hw hstale ⊢
  obtain ⟨hreplies, hdue⟩ := s.transport.mem_ask s.server s.missingWatches
  have hsound : ∀ r ∈ (s.transport.ask s.server s.missingWatches).1, r.Sound := by
    intro r hr
    obtain ⟨hmem, asked, hanswer⟩ := hreplies r hr
    have hwatch := (mem_missingWatches_iff s).1 hmem
    exact ⟨h.known _ _ hwatch.1, fun data hdata => h.answer _ _ hwatch.1 asked data (hanswer.trans hdata)⟩
  refine Cache.shows_iff.1 (Cache.shows_writeReplies (h.known id w hw) hsound hagrees ?_)
  by_cases hshown : s.cache.Shows w
  · exact .inl hshown
  · have hmissing : (id, w) ∈ s.missingWatches := by
      refine (mem_missingWatches_iff s).2 ⟨hw, ?_⟩
      unfold Cache.Shows at hshown
      cases hread : s.cache.readQuery w.doc w.args with
      | missing => rfl
      | hit v => exact absurd (by rw [hread]; rfl) hshown
    obtain ⟨r, hr, hid, hwatch⟩ := hdue _ hmissing
    refine .inr ⟨r, hr, hwatch, ?_⟩
    cases hok : r.answer.isOk with
    | true => rfl
    | false => exact absurd (Reply.mem_failed_iff.2 ⟨r, hr, hok, hid⟩) hstale

/-- Where the answers agree with what is stored, every watch that is not reported as stale can be read
after a mutation that was carried out, and after a scan. -/
theorem watches_kept_fresh (s : Service σ) (h : s.Rereads) :
    (∀ now m result server, s.transport.mutate s.server m = (.ok result, server) →
      (s.applied now m result server).2.Agrees →
        ∃ report, (s.mutate now m).1 = .ok report ∧ (s.mutate now m).2.Fresh report.refresh) ∧
    (({ s with cache := s.cache.reset } : Service σ).Agrees →
      (s.handleEvent .scanComplete).2.Fresh (s.handleEvent .scanComplete).1.refresh) := by
  constructor
  · intro now m result server hresult hagrees
    have hhooked : (s.applied now m result server).2.Rereads := ⟨h.known, h.answer⟩
    rw [mutate_eq, hresult]
    exact ⟨_, rfl, hhooked.fresh hagrees⟩
  · intro hagrees
    have hreset : ({ s with cache := s.cache.reset } : Service σ).Rereads := ⟨h.known, h.answer⟩
    exact hreset.fresh hagrees

/-! ## Two watches of one row -/

def rowArgs : Json := .object [("id", .string "1")]

def row (typename id : String) (more : Json.Fields) : Json :=
  .object ([("__typename", .string typename), ("id", .string id)] ++ more)

def rowList (name : String) (rows : List Json) : Json :=
  .object [("count", .int rows.length), (name, .array rows)]

/-- Row 1 is watched alone and in a list. Both were loaded, and may be answered differently now. -/
def twoWatches (doc list : Document) (loaded answers : Json × Json) (result : Json) : Service Unit where
  transport :=
    ⟨fun _ asked _ => (.ok (if asked = doc then answers.1 else answers.2), ()),
      fun _ _ => (.ok result, ())⟩
  server := ()
  cache :=
    ((Cache.new .standard).writeQuery doc (some rowArgs) loaded.1).writeQuery list none loaded.2
  watches := .ofList [(1, ⟨doc, some rowArgs⟩), (2, ⟨list, none⟩)]
  nextWatch := 3

theorem twoWatches_rereads {doc list : Document} {loaded answers : Json × Json} {result : Json}
    (hdocs : doc ∈ Document.all ∧ list ∈ Document.all)
    (h : ∀ data ∈ [answers.1, answers.2], data.references = [] ∧ data.Rereadable) :
    (twoWatches doc list loaded answers result).Rereads := by
  have hwatches : ∀ id w, (twoWatches doc list loaded answers result).watches.get? id = some w →
      w.doc = doc ∨ w.doc = list := by
    intro id w hw
    have hmem := (SortedMap.get?_eq_some_iff_mem _ _ _).1 hw
    rcases List.mem_cons.1 hmem with heq | hmem
    · cases heq
      exact .inl rfl
    · cases List.mem_singleton.1 hmem
      exact .inr rfl
  refine ⟨fun id w hw => ?_, fun id w hw server data hdata c => ?_⟩
  · rcases hwatches id w hw with hdoc | hdoc <;> rw [hdoc]
    exacts [hdocs.1, hdocs.2]
  · have hanswer : Except.ok (if w.doc = doc then answers.1 else answers.2) =
        (Except.ok data : Except TransportError Json) := hdata
    cases hanswer
    obtain ⟨hreferences, hreadable⟩ := h (if w.doc = doc then answers.1 else answers.2) (by
      split <;> simp)
    exact c.readRoot_writeRoot_hits w.doc.rootField w.args hreferences hreadable

theorem missingWatches_of_list {s : Service Unit} {doc list : Document}
    (hwatches : s.watches = .ofList [(1, ⟨doc, some rowArgs⟩), (2, ⟨list, none⟩)])
    (hrow : (s.cache.readQuery doc (some rowArgs)).isMissing = false)
    (hlist : (s.cache.readQuery list none).isMissing = true) :
    s.missingWatches = [(2, ⟨list, none⟩)] := by
  have hentries : s.watches.entries = [(1, ⟨doc, some rowArgs⟩), (2, ⟨list, none⟩)] := by
    rw [hwatches]
    rfl
  simp only [missingWatches, hentries, List.filter, hrow, hlist]

def streamed : Json :=
  row "Scene" "1" [("paths", .object [("stream", .string "a")]), ("title", .string "x")]

def twoTitles : Json :=
  rowList "scenes"
    [row "Scene" "1" [("title", .string "x")], row "Scene" "2" [("title", .string "y")]]

def listedScene : Service Unit :=
  twoWatches .findScene .findScenes
    (streamed, rowList "scenes" [row "Scene" "1" [("title", .string "x")]]) (streamed, twoTitles)
    (row "Scene" "2" [])

abbrev createdScene : Service Unit :=
  (listedScene.applied "" (.sceneCreate []) (row "Scene" "2" []) ()).2

theorem missingWatches_createdScene : createdScene.missingWatches = [(2, ⟨.findScenes, none⟩)] := by
  have hsource : createdScene.cache.source? Document.findScene.rootField (some rowArgs) =
      some (reference "Scene:1") := by decide +kernel
  have hrow := Cache.isMissing_readQuery (by decide +kernel) hsource (by decide +kernel)
  exact missingWatches_of_list rfl (hrow.trans (by decide +kernel)) (by decide +kernel)

/-- After the new scene only the list is asked for, after a scan both are. What the list says of the
first scene is known by then. -/
theorem listed_scene_kept_fresh :
    listedScene.Rereads ∧
      listedScene.transport.mutate () (.sceneCreate []) = (.ok (row "Scene" "2" []), ()) ∧
      createdScene.Agrees ∧
      (listedScene.mutate "" (.sceneCreate [])).1 = .ok ⟨.applied, ⟨[2], []⟩⟩ ∧
      (∃ report, (listedScene.mutate "" (.sceneCreate [])).1 = .ok report ∧
        (listedScene.mutate "" (.sceneCreate [])).2.Fresh report.refresh) ∧
      (listedScene.handleEvent .scanComplete).1 = ⟨true, ⟨[1, 2], []⟩⟩ ∧
      (listedScene.handleEvent .scanComplete).2.Fresh
        (listedScene.handleEvent .scanComplete).1.refresh := by
  have hrereads : listedScene.Rereads := twoWatches_rereads (by decide) (by decide +kernel)
  have hmutate : listedScene.transport.mutate listedScene.server (.sceneCreate []) =
      (.ok (row "Scene" "2" []), ()) := rfl
  have hlisted : (listedScene.transport.ask () [(2, ⟨.findScenes, none⟩)]).1 =
      [⟨2, ⟨.findScenes, none⟩, .ok twoTitles⟩] := rfl
  have happlied : createdScene.Agrees := by
    rw [Agrees, missingWatches_createdScene, transport_applied, server_applied, hlisted,
      Cache.accepts_answer]
    exact ⟨by decide +kernel, Cache.accepts_nil⟩
  have hreport : (listedScene.mutate "" (.sceneCreate [])).1 = .ok ⟨.applied, ⟨[2], []⟩⟩ := by
    have hhook : (listedScene.applied "" (.sceneCreate []) (row "Scene" "2" []) ()).1 = .applied := by
      decide +kernel
    rw [mutate_of_ok hmutate, hhook]
    simp only [refreshWatches_eq, missingWatches_createdScene, transport_applied, server_applied,
      hlisted]
    rfl
  have hasked : (listedScene.transport.ask listedScene.server listedScene.watches.entries).1 =
      [⟨1, ⟨.findScene, some rowArgs⟩, .ok streamed⟩, ⟨2, ⟨.findScenes, none⟩, .ok twoTitles⟩] := rfl
  -- After a scan both are asked for, and the second answer repeats what the first one said.
  have hreset : ({ listedScene with cache := listedScene.cache.reset } : Service Unit).Agrees := by
    rw [agrees_reset_iff, hasked, Cache.accepts_answer, Cache.accepts_answer]
    exact ⟨by decide +kernel, by decide +kernel, Cache.accepts_nil⟩
  have hscan : (listedScene.handleEvent .scanComplete).1 = ⟨true, ⟨[1, 2], []⟩⟩ := by
    rw [handleEvent_scanComplete]
    rfl
  have hfresh := watches_kept_fresh _ hrereads
  -- `happlied` is found by its form: to unfold what it says would run the whole call.
  have hkept := hfresh.1 "" (.sceneCreate []) (row "Scene" "2" []) () hmutate ‹_›
  exact ⟨hrereads, hmutate, ‹_›, hreport, hkept, hscan, hfresh.2 hreset⟩

/-- The list asks for other paths of the scene than the watch of the scene alone. -/
def splitScene : Service Unit :=
  twoWatches .findScene .findScenes answers answers .null
where
  paths (name value : String) : Json := row "Scene" "1" [("paths", .object [(name, .string value)])]
  answers : Json × Json := (paths "stream" "a", rowList "scenes" [paths "screenshot" "b"])

def tagUnder (own : Json.Fields) (parent : Json) : Json :=
  row "Tag" "1" (own ++ [("parents", .array [parent])])

def namelessParent (id : String) : Json := rowList "tags" [tagUnder [] (row "Tag" id [])]

/-- The tag is about to get another parent. The list does not ask for the name of a parent. -/
def movedTag : Service Unit :=
  twoWatches .findTag .findTags (answers "2" "b") (answers "5" "e") (row "Tag" "1" [])
where
  answers (id name : String) : Json × Json :=
    (tagUnder [("name", .string "a")] (row "Tag" id [("name", .string name)]), namelessParent id)

abbrev updatedTag : Service Unit := (movedTag.applied "" (.tagUpdate "1") (row "Tag" "1" []) ()).2

theorem missingWatches_updatedTag : updatedTag.missingWatches = [(2, ⟨.findTags, none⟩)] := by
  have hsource : updatedTag.cache.source? Document.findTag.rootField (some rowArgs) =
      some (reference "Tag:1") := by decide +kernel
  have hrow := Cache.isMissing_readQuery (by decide +kernel) hsource (by decide +kernel)
  exact missingWatches_of_list rfl (hrow.trans (by decide +kernel)) (by decide +kernel)

theorem mutate_movedTag :
    (movedTag.mutate "" (.tagUpdate "1")).1 = .ok ⟨.applied, ⟨[2], []⟩⟩ ∧
      (movedTag.mutate "" (.tagUpdate "1")).2.cache =
        updatedTag.cache.writeQuery .findTags none (namelessParent "5") := by
  have hmutate : movedTag.transport.mutate movedTag.server (.tagUpdate "1") =
      (.ok (row "Tag" "1" []), ()) := rfl
  have hhook : (movedTag.applied "" (.tagUpdate "1") (row "Tag" "1" []) ()).1 = .applied := by
    decide +kernel
  have hasked : (movedTag.transport.ask () [(2, ⟨.findTags, none⟩)]).1 =
      [⟨2, ⟨.findTags, none⟩, .ok (namelessParent "5")⟩] := rfl
  rw [mutate_of_ok hmutate, hhook]
  simp only [refreshWatches_eq, missingWatches_updatedTag, transport_applied, server_applied, hasked]
  exact ⟨rfl, rfl⟩

/-- An answer can replace what another watch reads, whether that one was answered before it or was not
missing at all. Neither is stale. -/
theorem refresh_loses_watch :
    splitScene.Rereads ∧
      splitScene.watches.get? 1 = some ⟨.findScene, some rowArgs⟩ ∧
      (splitScene.handleEvent .scanComplete).1 = ⟨true, ⟨[1, 2], []⟩⟩ ∧
      (splitScene.handleEvent .scanComplete).2.cache.readQuery .findScene (some rowArgs) = .missing ∧
      ¬(splitScene.handleEvent .scanComplete).2.Fresh ⟨[1, 2], []⟩ ∧
    movedTag.Rereads ∧
      movedTag.watches.get? 1 = some ⟨.findTag, some rowArgs⟩ ∧
      (movedTag.mutate "" (.tagUpdate "1")).1 = .ok ⟨.applied, ⟨[2], []⟩⟩ ∧
      (movedTag.mutate "" (.tagUpdate "1")).2.cache.readQuery .findTag (some rowArgs) = .missing ∧
      ¬(movedTag.mutate "" (.tagUpdate "1")).2.Fresh ⟨[2], []⟩ := by
  have hscene : splitScene.watches.get? 1 = some ⟨.findScene, some rowArgs⟩ := rfl
  have htag : movedTag.watches.get? 1 = some ⟨.findTag, some rowArgs⟩ := rfl
  have hscan : (splitScene.handleEvent .scanComplete).1 = ⟨true, ⟨[1, 2], []⟩⟩ ∧
      (splitScene.handleEvent .scanComplete).2.cache =
        ((Cache.new .standard).writeQuery .findScene (some rowArgs) splitScene.answers.1).writeQuery
          .findScenes none splitScene.answers.2 := by
    rw [handleEvent_scanComplete]
    exact ⟨rfl, rfl⟩
  -- The list is written last. In both runs it takes a selected field off the row of the first watch.
  obtain ⟨hreport, hwritten⟩ := mutate_movedTag
  have hscanned : (splitScene.handleEvent .scanComplete).2.cache.readQuery .findScene (some rowArgs) =
      .missing := by
    rw [hscan.2]
    have hsource : (((Cache.new .standard).writeQuery .findScene (some rowArgs)
        splitScene.answers.1).writeQuery .findScenes none splitScene.answers.2).source?
          Document.findScene.rootField (some rowArgs) = some (reference "Scene:1") := by decide +kernel
    have hread := Cache.isMissing_readQuery (by decide +kernel) hsource (by decide +kernel)
    exact ReadOutcome.isMissing_iff.1 (hread.trans (by decide +kernel))
  have hmoved : (movedTag.mutate "" (.tagUpdate "1")).2.cache.readQuery .findTag (some rowArgs) =
      .missing := by
    rw [hwritten]
    have hsource : (updatedTag.cache.writeQuery .findTags none (namelessParent "5")).source?
        Document.findTag.rootField (some rowArgs) = some (reference "Tag:1") := by decide +kernel
    have hread := Cache.isMissing_readQuery (by decide +kernel) hsource (by decide +kernel)
    exact ReadOutcome.isMissing_iff.1 (hread.trans (by decide +kernel))
  refine ⟨twoWatches_rereads (by decide) (by decide +kernel), hscene, hscan.1, hscanned, ?_,
    twoWatches_rereads (by decide) (by decide +kernel), htag, hreport, hmoved, ?_⟩
  · intro hfresh
    rw [Fresh, watches_handleEvent] at hfresh
    obtain ⟨v, hv⟩ := hfresh 1 _ hscene (by simp)
    cases hscanned.symm.trans hv
  · intro hfresh
    rw [Fresh, watches_mutate] at hfresh
    obtain ⟨v, hv⟩ := hfresh 1 _ htag (by simp)
    cases hmoved.symm.trans hv

end Service

end MediaCache
