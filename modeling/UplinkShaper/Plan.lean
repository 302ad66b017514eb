import UplinkShaper.Classify.Rules

/-!
Plans: the steps that build a class tree and its marks, in the order in which they
are taken. The root comes first and a class after its parent, then the marking
chain, and at the end the filters that lead marks to classes. The chain is emptied
within the plan, so a plan that is applied twice leaves one copy of every rule.
-/

namespace UplinkShaper

inductive PlanStep
  | root (capacity : LinkCapacity) (default : Int)
  | shapingClass (id : Int) (parent : Number) (curve : ServiceCurve)
  /-- The limit is in frames or bytes, as the kind of queue has it. -/
  | leafQueue (id : Int) (kind : String) (limit : Int)
  | clearMarks
  | attachMarks
  | mark (rule : ClassificationRule)
  | logMarks
  | markFilter (filter : MarkFilter)
deriving DecidableEq, Repr

/-- A step as text, which names the side it belongs to. -/
def PlanStep.describe : PlanStep → String
  | .root capacity default => s!"shaper.apply_root({capacity.literal}, {default})"
  | .shapingClass id parent curve =>
      s!"shaper.apply_class({id}, {parent.text}, {curve.literal})"
  | .leafQueue id kind limit =>
      s!"shaper.apply_leaf_qdisc({id}, {Text.quoted kind}, {limit})"
  | .clearMarks => "marking.clear_mark_rules()"
  | .attachMarks => "marking.attach()"
  | .mark rule => s!"marking.apply_mark_rule({rule.describe})"
  | .logMarks => "marking.apply_log_rule()"
  | .markFilter filter => s!"shaper.apply_filter({filter.literal})"

structure Plan where
  steps : List PlanStep
deriving DecidableEq, Repr

namespace Plan

/-- What stands for leaves without a queue of their own. -/
def noQueue : String := "none"

/-- The kind of queue whose limit is in frames. -/
def fairQueue : String := "sfq"

/-- The minor number that leads nowhere, for a tree without a default tier. -/
def noDefault : Int := 0

def classSteps (tree : ClassTree) : List PlanStep :=
  tree.tiers.map fun tier => .shapingClass tier.id tier.parent tier.curve

def queueLimit (kind : String) (tier : Tier) : Int :=
  if kind = fairQueue then Buffer.wholeFrames tier.buffer else tier.buffer

/-- A queue for every tier without children. -/
def queueSteps (tree : ClassTree) (kind : String) : List PlanStep :=
  if kind = noQueue then []
  else (tree.tiers.filter fun tier => !tree.isInner tier).map fun tier =>
    .leafQueue tier.id kind (queueLimit kind tier)

def build (tree : ClassTree) (rules : RuleSet) (kind : String) (isLogged : Bool) : Plan where
  steps :=
    [.root tree.capacity ((tree.default?.map (·.id)).getD noDefault)] ++ classSteps tree ++
      queueSteps tree kind ++ [.clearMarks, .attachMarks] ++ rules.rules.map .mark ++
      (if isLogged then [.logMarks] else []) ++ rules.filters.map .markFilter

def describe (plan : Plan) : List String :=
  plan.steps.map (·.describe)

def toValue (plan : Plan) : Value :=
  .list (plan.describe.map .text)

end Plan

end UplinkShaper
