import Mathlib.Algebra.BigOperators.Group.Finset.Piecewise
import MediaCache.Proofs.Store.Runs
import MediaCache.Proofs.Update.Counter

/-!
# Counts are conserved

A scene or an image shares its counter with its performers and with the total. Over a run of counter
calls a performer gains what the objects that list it gain, and the total gains what they all gain.
-/

namespace MediaCache

structure CounterCall where
  target : CounterTarget
  id : String
  op : CounterOp
  value : Int
  options : Options := {}

namespace CounterCall

def obj (call : CounterCall) : ObjectRef := ⟨call.target.typename, call.id⟩

def run (c : Cache) (call : CounterCall) : CounterPatch × Cache :=
  c.patchCounter call.target call.id call.op call.value call.options

end CounterCall

def CounterPatch.delta? : CounterPatch → Option Int
  | resident delta _ _ => some delta
  | evicted => none

def touched (calls : List CounterCall) : Finset ObjectRef := (calls.map CounterCall.obj).toFinset

namespace Cache

def runCounters (c : Cache) (calls : List CounterCall) : Cache :=
  calls.foldl (fun c call => (call.run c).2) c

def totalIn (v : Json) : Option Int := (v.field? totalCount).bind Json.asInt64?

def total? (c : Cache) (name : String) : Option Int := (c.root.get? name).bind totalIn

/-- The counter of a performer is an integer, that of an object may be `null`. No count exceeds 2^53. -/
structure Countable (c : Cache) (objects : Finset ObjectRef) (p : ObjectRef) : Prop where
  stored : ∀ o ∈ objects, ∃ v ∈ c.fieldValue? o counterField, v = .null ∨ v.asInt64?.isSome = true
  performer : ∃ v ∈ c.fieldValue? p counterField, v.asInt64?.isSome = true
  small : ∀ o ∈ insert p objects, (c.counted o).natAbs ≤ 2 ^ 53
  total : ∀ e ∈ c.rootEntries Document.stats.rootField, ∀ n ∈ totalIn e.2, n.natAbs ≤ 2 ^ 53

instance (c : Cache) (objects : Finset ObjectRef) (p : ObjectRef) : Decidable (c.Countable objects p) :=
  decidable_of_iff (_ ∧ _ ∧ _ ∧ _)
    ⟨fun h => ⟨h.1, h.2.1, h.2.2.1, h.2.2.2⟩, fun h => ⟨h.stored, h.performer, h.small, h.total⟩⟩

/-- The call finds its object, which lists performers, each once, and the server changed the counter
by what the call reports. -/
structure Truthful (c : Cache) (call : CounterCall) : Prop where
  reported : (call.run c).1.delta? = some (call.value - c.counted call.obj)
  distinct : (c.performersOf call.obj).Nodup
  performers : ∀ q ∈ c.performersOf call.obj, q.typename = .performer

instance (c : Cache) (call : CounterCall) : Decidable (c.Truthful call) :=
  decidable_of_iff (_ ∧ _ ∧ _)
    ⟨fun h => ⟨h.1, h.2.1, h.2.2⟩, fun h => ⟨h.reported, h.distinct, h.performers⟩⟩

/-- Every call is truthful at its turn, and all counts are in order before and after it. -/
def Conserving (objects : Finset ObjectRef) (p : ObjectRef) (c : Cache) : List CounterCall → Prop
  | [] => c.Countable objects p
  | call :: rest => c.Countable objects p ∧ c.Truthful call ∧
    Conserving objects p (call.run c).2 rest

def decideConserving (objects : Finset ObjectRef) (p : ObjectRef) :
    (c : Cache) → (calls : List CounterCall) → Decidable (Conserving objects p c calls)
  | c, [] => inferInstanceAs (Decidable (c.Countable objects p))
  | c, call :: rest =>
    have := decideConserving objects p (call.run c).2 rest
    inferInstanceAs (Decidable (_ ∧ _ ∧ _))

instance (objects : Finset ObjectRef) (p : ObjectRef) (c : Cache) (calls : List CounterCall) :
    Decidable (Conserving objects p c calls) := decideConserving objects p c calls

variable {objects : Finset ObjectRef} {p : ObjectRef} {c d : Cache}

theorem Conserving.countable {calls : List CounterCall} (h : Conserving objects p c calls) :
    c.Countable objects p := by
  cases calls with
  | nil => exact h
  | cons call rest => exact h.1

theorem Countable.contains (h : c.Countable objects p) {o : ObjectRef} (ho : o ∈ objects ∨ o = p) :
    c.contains o = true := by
  rcases ho with ho | rfl
  · obtain ⟨v, hv, -⟩ := h.stored o ho
    exact contains_of_fieldValue? hv
  · obtain ⟨v, hv, -⟩ := h.performer
    exact contains_of_fieldValue? hv

theorem Countable.total_small (h : c.Countable objects p) {name : String} {n : Int}
    (hstats : baseFieldName name = Document.stats.rootField) (hn : c.total? name = some n) :
    n.natAbs ≤ 2 ^ 53 := by
  obtain ⟨v, hv, hin⟩ := Option.bind_eq_some_iff.1 hn
  exact h.total (name, v) (mem_rootEntries_iff.2 ⟨hstats, hv⟩) n hin

theorem counted_of_int {o : ObjectRef} {i : Int} (h : c.fieldValue? o counterField = some (.int i))
    (hi : inInt64 i = true) : c.counted o = i := by
  unfold counted
  rw [h, Option.bind_some, Json.asInt64?_int, if_pos hi]
  rfl

theorem natAbs_delta (op : CounterOp) {old : Int} (h : old.natAbs ≤ 2 ^ 53) :
    (op.delta old).natAbs ≤ 2 ^ 53 := by
  cases op with
  | increment => simp [CounterOp.delta]
  | decrement => simp [CounterOp.delta]
  | reset =>
    have hfits : inInt64 (-old) = true := by
      unfold inInt64
      rw [decide_eq_true_eq]
      omega
    unfold CounterOp.delta
    simp only [wrapInt64_of_inInt64 hfits]
    omega

/-! ## One call -/

/-- What a call changes, of all that is counted. -/
structure Counted (objects : Finset ObjectRef) (p obj : ObjectRef) (delta : Int) (c d : Cache) :
    Prop where
  object : ∀ o ∈ objects, d.counted o - c.counted o = if o = obj then delta else 0
  performer : d.counted p - c.counted p = if p ∈ c.performersOf obj then delta else 0
  lists : ∀ o ∈ objects, d.performersOf o = c.performersOf o
  total : ∀ name n, baseFieldName name = Document.stats.rootField → c.total? name = some n →
    d.total? name = some (n + delta)

theorem exists_delta_of_reported {call : CounterCall}
    (h : (call.run c).1.delta? = some (call.value - c.counted call.obj)) :
    ∃ delta, call.value = c.counted call.obj + delta ∧ delta = call.op.delta (c.counted call.obj) ∧
      CounterEffect c (call.run c).2 call.obj delta call.value := by
  cases hrun : (call.run c).1 with
  | evicted =>
    rw [hrun] at h
    cases h
  | resident delta patched unresolved =>
    obtain ⟨hdelta, heffect⟩ := counterEffect_patchCounter hrun
    rw [hrun] at h
    have hvalue : delta = call.value - c.counted call.obj := Option.some.inj h
    refine ⟨delta, ?_, hdelta, heffect⟩
    omega

theorem counted_congr {o : ObjectRef} (h : d.fieldValue? o counterField = c.fieldValue? o counterField) :
    d.counted o = c.counted o := by
  unfold counted
  rw [h]

section Effect

variable {obj : ObjectRef} {delta value : Int}

theorem counted_own (h : CounterEffect c d obj delta value) (hobj : obj ∈ objects)
    (hd : d.Countable objects p) : d.counted obj = value := by
  have hown := h.own (hd.contains (.inl hobj))
  have hfits : inInt64 value = true := by
    obtain ⟨v, hv, hcount⟩ := hd.stored _ hobj
    rw [hown] at hv
    cases hv
    simpa [Json.int, Json.asInt64?, Json.asNumber?, Number.asInt64?] using hcount
  exact counted_of_int hown hfits

/-- Up to 2^53 the change is an exact double, and the sum stays within 64 bits. -/
theorem counted_listed (h : CounterEffect c d obj delta value) (hdelta : delta.natAbs ≤ 2 ^ 53)
    (hc : c.Countable objects p) (hd : d.Countable objects p) (hnodup : (c.performersOf obj).Nodup)
    (hlisted : p ∈ c.performersOf obj) (hne : p ≠ obj) : d.counted p = c.counted p + delta := by
  obtain ⟨v, hv, hint⟩ := hc.performer
  obtain ⟨i, hi⟩ := Option.isSome_iff_exists.1 hint
  have hbind : (c.fieldValue? p counterField).bind Json.asInt64? = some i := by
    rw [hv, Option.bind_some, hi]
  have hcounted : c.counted p = i := by
    unfold counted
    rw [hbind]
    rfl
  have hsmall : i.natAbs ≤ 2 ^ 53 := by
    rw [← hcounted]
    exact hc.small p (Finset.mem_insert_self _ _)
  have hnew := h.performer hnodup p hlisted hne i hbind (hd.contains (.inr rfl))
  rw [wrapInt64_add_ofInt hsmall hdelta] at hnew
  have hfits : inInt64 (i + delta) = true := by
    unfold inInt64
    rw [decide_eq_true_eq]
    omega
  rw [counted_of_int hnew hfits, hcounted]

theorem total_added (h : CounterEffect c d obj delta value) (hdelta : delta.natAbs ≤ 2 ^ 53)
    (hc : c.Countable objects p) {name : String} {n : Int}
    (hstats : baseFieldName name = Document.stats.rootField) (hn : c.total? name = some n) :
    d.total? name = some (n + delta) := by
  obtain ⟨v, hv, hcount⟩ := Option.bind_eq_some_iff.1 hn
  have hentry := h.stats name hstats
  have hget : d.root.get? name = some (addedStat totalCount (Double.ofInt delta) v) := by
    have hold : (c.entry name).1 = some v := hv
    rw [hold, Option.map_some] at hentry
    exact hentry
  have htotal : (v.field? totalCount).bind Json.asInt64? = some n := hcount
  unfold total? totalIn
  rw [hget, Option.bind_some, count_addedStat (Double.isWhole_ofInt delta), htotal, Option.map_some,
    wrapInt64_add_ofInt (hc.total_small hstats hn) hdelta]

end Effect

theorem counted_run (hobjects : ∀ o ∈ objects, o.typename ≠ .performer)
    (hp : p.typename = .performer) {call : CounterCall} (hcall : call.obj ∈ objects)
    (hc : c.Countable objects p) (htruthful : c.Truthful call)
    (hd : (call.run c).2.Countable objects p) :
    ∃ delta, Counted objects p call.obj delta c (call.run c).2 := by
  obtain ⟨delta, hvalue, hdelta, heffect⟩ := exists_delta_of_reported htruthful.reported
  have hsmall : delta.natAbs ≤ 2 ^ 53 := by
    rw [hdelta]
    exact natAbs_delta call.op (hc.small _ (Finset.mem_insert_of_mem hcall))
  have hunlisted : ∀ o ∈ objects, o ∉ c.performersOf call.obj :=
    fun o ho hin => hobjects o ho (htruthful.performers o hin)
  have hpobj : p ≠ call.obj := fun he => hobjects call.obj hcall (he ▸ hp)
  refine ⟨delta, ?_, ?_, ?_, ?_⟩
  · intro o ho
    by_cases hobj : o = call.obj
    · -- The object of the call takes the value that the server reported.
      rw [if_pos hobj, hobj, counted_own heffect hcall hd, hvalue]
      omega
    · -- No other object of the set is written, since performers are not among them.
      have hsame := heffect.other o counterField (fun he => hobj he.1)
        (fun he => hunlisted o ho he.1) (hd.contains (.inl ho))
      rw [if_neg hobj, counted_congr hsame]
      omega
  · by_cases hlisted : p ∈ c.performersOf call.obj
    · -- The object lists the performer, once.
      rw [if_pos hlisted, counted_listed heffect hsmall hc hd htruthful.distinct hlisted hpobj]
      omega
    · -- The performer is not listed, and keeps its counter.
      have hsame := heffect.other p counterField (fun he => hpobj he.1) (fun he => hlisted he.1)
        (hd.contains (.inr rfl))
      rw [if_neg hlisted, counted_congr hsame]
      omega
  · -- No call changes who is listed.
    intro o ho
    have hsame := heffect.other o "performers" (fun he => by simp [counterField] at he)
      (fun he => by simp [counterField] at he) (hd.contains (.inl ho))
    unfold performersOf
    rw [hsame]
  · exact fun name n hstats hn => total_added heffect hsmall hc hstats hn

/-! ## Whole runs -/

/-- Runs over a fixed set of objects, which may be larger than what is touched. -/
theorem conserved_over (hobjects : ∀ o ∈ objects, o.typename ≠ .performer)
    (hp : p.typename = .performer) (calls : List CounterCall)
    (hcalls : ∀ call ∈ calls, call.obj ∈ objects) (h : Conserving objects p c calls) :
    (c.runCounters calls).counted p - c.counted p =
        ∑ o ∈ objects with p ∈ c.performersOf o, ((c.runCounters calls).counted o - c.counted o) ∧
      ∀ name n, baseFieldName name = Document.stats.rootField → c.total? name = some n →
        (c.runCounters calls).total? name =
          some (n + ∑ o ∈ objects, ((c.runCounters calls).counted o - c.counted o)) := by
  induction calls generalizing c with
  | nil =>
    have hnone : c.runCounters [] = c := rfl
    rw [hnone]
    simp
  | cons call rest ih =>
    obtain ⟨hc, htruthful, hrest⟩ := h
    have hcall := hcalls call List.mem_cons_self
    obtain ⟨delta, hstep⟩ := counted_run hobjects hp hcall hc htruthful hrest.countable
    obtain ⟨ihp, ihtotal⟩ := ih (fun call hin => hcalls call (List.mem_cons_of_mem _ hin)) hrest
    have hrun : c.runCounters (call :: rest) = (call.run c).2.runCounters rest := rfl
    rw [hrun]
    generalize (call.run c).2.runCounters rest = e at ihp ihtotal ⊢
    -- Of any set of objects, the call changes the counter of its own object only.
    have hsplit : ∀ s ⊆ objects, ∑ o ∈ s, (e.counted o - c.counted o) =
        ∑ o ∈ s, (e.counted o - (call.run c).2.counted o) + if call.obj ∈ s then delta else 0 := by
      intro s hs
      rw [← Finset.sum_ite_eq' s call.obj fun _ => delta, ← Finset.sum_add_distrib]
      refine Finset.sum_congr rfl fun o ho => ?_
      rw [← hstep.object o (hs ho)]
      omega
    have hlists : (objects.filter fun o => p ∈ (call.run c).2.performersOf o) =
        objects.filter fun o => p ∈ c.performersOf o :=
      Finset.filter_congr fun o ho => by rw [hstep.lists o ho]
    have hmem : (call.obj ∈ objects.filter fun o => p ∈ c.performersOf o) ↔
        p ∈ c.performersOf call.obj := by
      rw [Finset.mem_filter]
      exact ⟨fun h => h.2, fun h => ⟨hcall, h⟩⟩
    constructor
    · rw [hsplit _ (Finset.filter_subset _ _), ← hlists, ← ihp, hlists]
      simp only [hmem]
      rw [← hstep.performer]
      omega
    · intro name n hstats hn
      rw [ihtotal name _ hstats (hstep.total name n hstats hn), hsplit objects (Finset.Subset.refl _),
        if_pos hcall]
      congr 1
      omega

theorem typename_of_touched {calls : List CounterCall} :
    ∀ o ∈ touched calls, o.typename ≠ .performer := by
  intro o ho
  obtain ⟨call, -, rfl⟩ := List.mem_map.1 (List.mem_toFinset.1 ho)
  unfold CounterCall.obj
  cases call.target <;> simp [CounterTarget.typename, CounterTarget.family, Family.typename]

/-- Over a run of truthful calls the counter of a performer changes by what the counters of the touched
objects that list it change by, and the total of each cached answer by what all of them change by. -/
theorem counters_conserved {calls : List CounterCall} (hp : p.typename = .performer)
    (h : Conserving (touched calls) p c calls) :
    (c.runCounters calls).counted p - c.counted p =
        ∑ o ∈ touched calls with p ∈ c.performersOf o,
          ((c.runCounters calls).counted o - c.counted o) ∧
      ∀ name n, baseFieldName name = Document.stats.rootField → c.total? name = some n →
        (c.runCounters calls).total? name =
          some (n + ∑ o ∈ touched calls, ((c.runCounters calls).counted o - c.counted o)) := by
  refine conserved_over typename_of_touched hp calls (fun call hcall => ?_) h
  exact List.mem_toFinset.2 (List.mem_map.2 ⟨call, hcall, rfl⟩)

def sharedPerformer : Cache :=
  (new .standard).run [
    .writeRoot "stats" none (.object [("total_o_count", .int 4)]),
    .writeRoot "findScene" (some (.object [("id", .string "1")])) (.object [
      ("__typename", .string "Scene"), ("id", .string "1"), ("o_counter", .int 4),
      ("performers", .array [
        .object [("__typename", .string "Performer"), ("id", .string "2"), ("o_counter", .int 9)],
        .object [("__typename", .string "Performer"), ("id", .string "3"), ("o_counter", .int 4)]])]),
    .writeRoot "findImage" (some (.object [("id", .string "7")])) (.object [
      ("__typename", .string "Image"), ("id", .string "7"), ("o_counter", .null),
      ("performers", .array [reference "Performer:2"])])]

def threeCalls : List CounterCall :=
  [{ target := .scene, id := "1", op := .increment, value := 5 },
    { target := .image, id := "7", op := .increment, value := 1 },
    { target := .scene, id := "1", op := .reset, value := 0 }]

/-- The scene loses four and the image gains one, so the performer of both loses three. -/
theorem sharedPerformer_conserved :
    Conserving (touched threeCalls) ⟨.performer, "2"⟩ sharedPerformer threeCalls ∧
      (sharedPerformer.runCounters threeCalls).counted ⟨.performer, "2"⟩ = 6 ∧
      (sharedPerformer.runCounters threeCalls).counted ⟨.performer, "2"⟩ -
          sharedPerformer.counted ⟨.performer, "2"⟩ =
        ∑ o ∈ touched threeCalls with ⟨.performer, "2"⟩ ∈ sharedPerformer.performersOf o,
          ((sharedPerformer.runCounters threeCalls).counted o - sharedPerformer.counted o) ∧
      (sharedPerformer.runCounters threeCalls).total? "stats" =
        some (4 + ∑ o ∈ touched threeCalls,
          ((sharedPerformer.runCounters threeCalls).counted o - sharedPerformer.counted o)) := by
  have hrun : Conserving (touched threeCalls) ⟨.performer, "2"⟩ sharedPerformer threeCalls := by
    decide +kernel
  have hconserved := counters_conserved rfl hrun
  exact ⟨hrun, by decide +kernel, hconserved.1,
    hconserved.2 "stats" 4 (by decide +kernel) (by decide +kernel)⟩

end Cache

end MediaCache
