import MediaCache.Update.Plan

/-!
# Overflow

Whole numbers are stored in 64 bits. With checked arithmetic a mutation that needs a sum which leaves
them is not carried out: the step that adds stops the run, and there is no cache after it. Where a run
ends, every sum in it was exact, and the cache is that of `applyMutation`, whose unchecked sums go on
modulo 2^64.
-/

namespace MediaCache

/-- Whether a stored number takes a change without leaving 64 bits. Only sums of whole numbers can. -/
def sumFits (v : Json) (delta : Double) : Bool :=
  match v.asInt64?, delta.isWhole with
  | some current, true => inInt64 (current + clampInt64 delta.truncate)
  | _, _ => true

def CounterOp.fits (op : CounterOp) (old : Int) : Bool :=
  match op with
  | reset => inInt64 (-old)
  | _ => true

namespace Cache

def fieldFits (c : Cache) (obj : ObjectRef) (field : String) (delta : Double) : Bool :=
  (c.fieldValue? obj field).all (sumFits · delta)

/-- Every cached answer that has the statistic takes the change. -/
def statFits (c : Cache) (stat : String) (delta : Double) : Bool :=
  (c.rootEntries Document.stats.rootField).all fun e => (e.2.field? stat).all (sumFits · delta)

def performersFit (delta : Double) (counts : PerformerCounts) : List ObjectRef → Bool
  | [] => true
  | performer :: rest =>
    -- A performer that is listed twice takes the change twice.
    counts.cache.fieldFits performer counterField delta &&
      performersFit delta (patchPerformer delta counts performer) rest

def counterFits (c : Cache) (target : CounterTarget) (obj : ObjectRef) (op : CounterOp) : Bool :=
  match c.readFragment obj target.fragment with
  | some fragment =>
    let delta := Double.ofInt (op.delta (countIn fragment))
    op.fits (countIn fragment) && performersFit delta { cache := c } (performersIn fragment) &&
      c.statFits totalCount delta
  | none => true

def playFits (c : Cache) (scene : ObjectRef) : Bool :=
  let previous := c.playCount? scene
  let one := Double.ofInt 1
  previous.all (fun n => inInt64 (n + 1)) && c.statFits "total_play_count" one &&
    (previous != some 0 || c.statFits "scenes_played" one)

end Cache

def Step.fits (c : Cache) : Step → Bool
  | addToStat stat delta => c.statFits stat delta
  | addToField obj field delta => c.fieldFits obj field delta
  | countPlay scene => c.playFits scene
  | patchCounter target id op _ => c.counterFits target ⟨target.typename, id⟩ op
  | _ => true

def Step.run? (options : Options) (now : String) (c : Cache) (step : Step) : Option Cache :=
  if step.fits c then some (step.run options now c) else none

def Plan.run? (options : Options) (now : String) (c : Cache) (plan : Plan) : Option Cache :=
  plan.foldlM (Step.run? options now) c

/-- `applyMutation`, unless a sum on its way leaves 64 bits. -/
def Cache.applyMutation? (c : Cache) (options : Options) (now : String) (m : Mutation)
    (result : Option Json) : Option (Outcome × Cache) :=
  match result.filter m.kind.accepts with
  | none => some (.skipped, c)
  | some result =>
    (Plan.run? options now (c.writeResult m.kind.subject result) (m.plan result)).map (.applied, ·)

end MediaCache
