/-
Complete-batch reduction: decisions are recomputed from immutable snapshots
until they stabilise, then aggregates, frontiers, projections, conflicts and
the presentation order are derived from the stable decisions.
-/
import Hq.Presentation

namespace Hq

inductive DecisionStatus where
  | projected | unresolved | unauthorized | conflicted | invalid | unsupported
deriving DecidableEq

inductive DecisionReason (R : Type) where
  | identityCollision
  | causalCycle
  | domain (reason : R)
deriving DecidableEq

/-- What a domain policy decides about a graph-ready fact. -/
inductive DomainDecision (R : Type) where
  | projected
  | unauthorized (reason : R) (failedAuthorities : OrderedSet AuthorityRole)
  | conflicted (reason : R) (participants : OrderedSet FactId)
  | invalid (reason : R)
  | unsupported (reason : R)
deriving DecidableEq

/-- The normalized decision about one identity. -/
structure FactDecision (R : Type) where
  status : DecisionStatus
  reason : Option (DecisionReason R)
  missingDependencies : OrderedSet FactId
  unusableDependencies : OrderedMap FactId DecisionStatus
  failedAuthorities : OrderedSet AuthorityRole
  conflictParticipants : OrderedSet FactId
  reverseDependants : OrderedSet FactId
deriving DecidableEq

/-- The snapshot a domain policy reads.  The source hands it whole decisions;
the policies of the domains ask only for their statuses. -/
structure ReductionContext where
  facts : FactSet
  graph : CausalGraph
  statuses : OrderedMap FactId DecisionStatus

namespace ReductionContext

def isProjected (context : ReductionContext) (id : FactId) : Bool :=
  context.statuses.get? id = some .projected

/-- Reachability restricted to projected facts. -/
def usablyReaches (context : ReductionContext)
    (ancestor descendant : FactId) : Bool :=
  if !context.isProjected ancestor || !context.isProjected descendant then
    false
  else if ancestor = descendant then true
  else context.graph.reachesThrough context.isProjected ancestor descendant

/-- The projected facts in identity order. -/
def projectedFacts (context : ReductionContext) : List Fact :=
  context.facts.facts.filter fun fact => context.isProjected fact.id

end ReductionContext

structure ProjectionContribution (K V : Type) where
  key : K
  value : V
  directSupport : OrderedSet FactId

inductive ConflictReason (R : Type) where
  | identityCollision
  | domain (reason : R)
deriving DecidableEq

/-- A conflict and every participating identity. -/
@[ext] structure ConflictObservation (R : Type) where
  reason : ConflictReason R
  participants : OrderedSet FactId

/-- Reasons carry the order of their declaration as one field code. -/
class FieldCoded (α : Type) where
  field : α → List Int
  field_injective : Function.Injective field

instance {R : Type} [FieldCoded R] : Coded (ConflictObservation R) where
  code observation :=
    (match observation.reason with
      | .identityCollision => [0]
      | .domain reason => 1 :: FieldCoded.field reason) ::
      observation.participants.toList.map OpaqueBytes.field
  code_injective := by
    rintro ⟨leftReason, left⟩ ⟨rightReason, right⟩ h
    simp only [List.cons.injEq] at h
    obtain ⟨hreason, hids⟩ := h
    have hlist := List.map_injective_iff.2 OpaqueBytes.field_injective hids
    ext1
    · cases leftReason <;> cases rightReason <;>
        simp_all [FieldCoded.field_injective.eq_iff]
    · cases left
      cases right
      simpa using hlist

instance {R : Type} [FieldCoded R] : LinearOrder (ConflictObservation R) :=
  Coded.linearOrder _

/-- The pure policy plugged into complete-batch reduction. -/
structure DomainReducer (A K V R : Type) where
  classify : Fact → ReductionContext → DomainDecision R
  aggregateKeys : Fact → ReductionContext → List A
  projections : ReductionContext → List (ProjectionContribution K V)
  conflicts : ReductionContext → List (ConflictObservation R)
  presentationEntries : ReductionContext → List PresentationEntry

inductive ReduceError where
  | nonConvergentDomainDecisions
  | projectionValueConflict
  | emptyProjectionSupport
  | invalidProjectionSupport (id : FactId)
  | invalidPresentationFact (id : FactId)
  | presentation (error : PresentationError)
deriving DecidableEq

section Decisions

variable {A K V R : Type}

def unresolvedDecision (missing : OrderedSet FactId)
    (unusable : OrderedMap FactId DecisionStatus)
    (reverseDependants : OrderedSet FactId) : FactDecision R :=
  ⟨.unresolved, none, missing, unusable, ∅, ∅, reverseDependants⟩

/-- The decision the graph alone forces. -/
def structuralDecision (facts : FactSet) (graph : CausalGraph)
    (id : FactId) : FactDecision R :=
  let reverseDependants := graph.children id
  if facts.isCollision id then
    ⟨.conflicted, some .identityCollision, ∅, ∅, ∅, OrderedSet.ofList [id],
      reverseDependants⟩
  else if id ∈ graph.cycleMembers then
    ⟨.invalid, some .causalCycle, ∅, ∅, ∅, ∅, reverseDependants⟩
  else
    let missing := (graph.parents id).filter fun parent =>
      !facts.contains parent
    if missing.isEmpty then
      ⟨.projected, none, ∅, ∅, ∅, ∅, reverseDependants⟩
    else unresolvedDecision missing ∅ reverseDependants

def domainDecision (decision : DomainDecision R)
    (reverseDependants : OrderedSet FactId) : FactDecision R :=
  match decision with
  | .projected => ⟨.projected, none, ∅, ∅, ∅, ∅, reverseDependants⟩
  | .unauthorized reason failedAuthorities =>
      ⟨.unauthorized, some (.domain reason), ∅, ∅, failedAuthorities, ∅,
        reverseDependants⟩
  | .conflicted reason participants =>
      ⟨.conflicted, some (.domain reason), ∅, ∅, ∅, participants,
        reverseDependants⟩
  | .invalid reason =>
      ⟨.invalid, some (.domain reason), ∅, ∅, ∅, ∅, reverseDependants⟩
  | .unsupported reason =>
      ⟨.unsupported, some (.domain reason), ∅, ∅, ∅, ∅, reverseDependants⟩

/-- Present parents whose current decision is not projected. -/
def unusableDependencies (context : ReductionContext) (id : FactId) :
    OrderedMap FactId DecisionStatus :=
  OrderedMap.ofList
    ((context.graph.parents id).toList.filterMap fun parent =>
      (context.statuses.get? parent).bind fun status =>
        if status ≠ .projected then some (parent, status) else none)

/-- The decision about one identity from a snapshot.  A structurally
projected identity is not collided, so its fact is present; the source's
error for an absent fact is not reached. -/
def nextDecision (domain : DomainReducer A K V R) (context : ReductionContext)
    (id : FactId) : FactDecision R :=
  let structural := structuralDecision context.facts context.graph id
  match structural.status, context.facts.get? id with
  | .projected, some fact =>
      let unusable := unusableDependencies context id
      if unusable.entries.isEmpty then
        domainDecision (domain.classify fact context) (context.graph.children id)
      else unresolvedDecision ∅ unusable (context.graph.children id)
  | _, _ => structural

abbrev Decisions (R : Type) := OrderedMap FactId (FactDecision R)

/-- The snapshot of a decision map. -/
def contextOf (facts : FactSet) (graph : CausalGraph)
    (decisions : Decisions R) : ReductionContext :=
  ⟨facts, graph, decisions.mapValues fun _ decision => decision.status⟩

def structuralDecisions (facts : FactSet) (graph : CausalGraph) :
    Decisions R :=
  facts.entries.mapValues fun id _ => structuralDecision facts graph id

/-- One round: every decision is recomputed from the same snapshot. -/
def nextDecisions (domain : DomainReducer A K V R) (facts : FactSet)
    (graph : CausalGraph) (decisions : Decisions R) : Decisions R :=
  facts.entries.mapValues fun id _ =>
    nextDecision domain (contextOf facts graph decisions) id

/-- Repeat rounds until one changes nothing. -/
def stabilizeFrom [DecidableEq R] (domain : DomainReducer A K V R)
    (facts : FactSet) (graph : CausalGraph) :
    Nat → Decisions R → Except ReduceError (Decisions R)
  | 0, _ => .error .nonConvergentDomainDecisions
  | rounds + 1, decisions =>
      let next := nextDecisions domain facts graph decisions
      if next = decisions then .ok next
      else stabilizeFrom domain facts graph rounds next

def stabilizeDecisions [DecidableEq R] (domain : DomainReducer A K V R)
    (facts : FactSet) (graph : CausalGraph) :
    Except ReduceError (Decisions R) :=
  let decisions := structuralDecisions facts graph
  stabilizeFrom domain facts graph (2 * decisions.size + 2) decisions

end Decisions

section Derivations

variable {A K V R : Type}

/-- Every fact of each aggregate, unusable facts included. -/
def deriveAggregateMembers [LinearOrder A] (domain : DomainReducer A K V R)
    (context : ReductionContext) : OrderedMap A (OrderedSet FactId) :=
  (context.facts.facts.flatMap fun fact =>
    (domain.aggregateKeys fact context).map fun key => (key, fact.id)).foldl
      (fun members entry => members.insertMember entry.1 entry.2) ∅

/-- Members that no other member is usably reached from. -/
def maximalMembers (context : ReductionContext) (members : OrderedSet FactId) :
    OrderedSet FactId :=
  members.filter fun candidate =>
    !members.toList.any fun other =>
      other ≠ candidate && context.usablyReaches candidate other

/-- The projected causal maxima of every aggregate that has a member. -/
def deriveFrontiers [LinearOrder A] (context : ReductionContext)
    (aggregateMembers : OrderedMap A (OrderedSet FactId)) :
    OrderedMap A (OrderedSet FactId) :=
  OrderedMap.ofList (aggregateMembers.entries.filterMap fun entry =>
    let candidates := entry.2.filter context.isProjected
    if candidates.isEmpty then none
    else some (entry.1, maximalMembers context candidates))

/-- Collect contributions by key, refusing empty support and unequal values. -/
def collectContributions [LinearOrder K] [DecidableEq V] :
    List (ProjectionContribution K V) →
      OrderedMap K V × OrderedMap K (OrderedSet FactId) →
      Except ReduceError (OrderedMap K V × OrderedMap K (OrderedSet FactId))
  | [], collected => .ok collected
  | contribution :: rest, (projections, support) =>
      if contribution.directSupport.isEmpty then
        .error .emptyProjectionSupport
      else
        let extended := support.insert contribution.key
          ((support.members contribution.key).extend
            contribution.directSupport.toList)
        match projections.get? contribution.key with
        | some existing =>
            if existing ≠ contribution.value then
              .error .projectionValueConflict
            else collectContributions rest (projections, extended)
        | none =>
            collectContributions rest
              (projections.insert contribution.key contribution.value, extended)

/-- The ancestors of the pending facts, refused at an unusable one. -/
def transitiveSupport (context : ReductionContext) :
    Nat → OrderedSet FactId → List FactId →
      Except ReduceError (OrderedSet FactId)
  | 0, transitive, _ => .ok transitive
  | _ + 1, transitive, [] => .ok transitive
  | fuel + 1, transitive, id :: pending =>
      if !context.isProjected id then .error (.invalidProjectionSupport id)
      else if id ∈ transitive then
        transitiveSupport context fuel transitive pending
      else transitiveSupport context fuel (transitive.insert id)
        (pending ++ (context.graph.parents id).toList)

/-- Enough steps for one support traversal. -/
def supportFuel (context : ReductionContext) (direct : OrderedSet FactId) :
    Nat :=
  direct.toList.length + (context.graph.parentIndex.entries.map fun entry =>
    entry.2.toList.length).sum + 1

/-- Close every direct support set under causal parents. -/
def closeSupport [LinearOrder K] (context : ReductionContext) :
    List (K × OrderedSet FactId) → OrderedMap K (OrderedSet FactId) →
      Except ReduceError (OrderedMap K (OrderedSet FactId))
  | [], support => .ok support
  | (key, direct) :: rest, support =>
      match transitiveSupport context (supportFuel context direct) ∅
          direct.toList with
      | .error error => .error error
      | .ok transitive => closeSupport context rest (support.insert key transitive)

def deriveProjections [LinearOrder K] [DecidableEq V]
    (domain : DomainReducer A K V R) (context : ReductionContext) :
    Except ReduceError (OrderedMap K V × OrderedMap K (OrderedSet FactId)) :=
  match collectContributions (domain.projections context) (∅, ∅) with
  | .error error => .error error
  | .ok (projections, direct) =>
      match closeSupport context direct.entries ∅ with
      | .error error => .error error
      | .ok support => .ok (projections, support)

def deriveConflicts [FieldCoded R] (domain : DomainReducer A K V R)
    (context : ReductionContext) (decisions : Decisions R) :
    OrderedSet (ConflictObservation R) :=
  OrderedSet.ofList
    (context.facts.collisions.toList.map (fun id =>
        ⟨.identityCollision, OrderedSet.ofList [id]⟩) ++
      decisions.values.filterMap (fun decision =>
        match decision.reason, decision.status with
        | some (.domain reason), .conflicted =>
            some ⟨.domain reason, decision.conflictParticipants⟩
        | _, _ => none) ++
      domain.conflicts context)

end Derivations

/-- The representation-independent result of reduction. -/
structure ReductionReport (A K V R : Type) [LinearOrder A] [LinearOrder K]
    [FieldCoded R] where
  facts : FactSet
  graph : CausalGraph
  decisions : Decisions R
  dependencyOrder : List FactId
  aggregateMembers : OrderedMap A (OrderedSet FactId)
  frontiers : OrderedMap A (OrderedSet FactId)
  projections : OrderedMap K V
  support : OrderedMap K (OrderedSet FactId)
  conflicts : OrderedSet (ConflictObservation R)
  presentationOrder : List FactId

section Reduce

variable {A K V R : Type} [LinearOrder A] [LinearOrder K] [DecidableEq V]
  [DecidableEq R] [FieldCoded R]

/-- Derive the report from stable decisions. -/
def deriveReport (domain : DomainReducer A K V R) (facts : FactSet)
    (graph : CausalGraph) (decisions : Decisions R) :
    Except ReduceError (ReductionReport A K V R) :=
  let context := contextOf facts graph decisions
  let aggregateMembers := deriveAggregateMembers domain context
  match deriveProjections domain context with
  | .error error => .error error
  | .ok (projections, support) =>
      let entries := domain.presentationEntries context
      match entries.find? fun entry => !context.isProjected entry.factId with
      | some entry => .error (.invalidPresentationFact entry.factId)
      | none =>
          match canonicalPresentationOrder graph entries with
          | .error error => .error (.presentation error)
          | .ok presentationOrder => .ok
              { facts, graph, decisions
                dependencyOrder := graph.dependencyOrder
                aggregateMembers
                frontiers := deriveFrontiers context aggregateMembers
                projections, support
                conflicts := deriveConflicts domain context decisions
                presentationOrder }

/-- The reduction of a normalized fact set. -/
def reduceSet (domain : DomainReducer A K V R) (facts : FactSet) :
    Except ReduceError (ReductionReport A K V R) :=
  match stabilizeDecisions domain facts facts.graph with
  | .error error => .error error
  | .ok decisions => deriveReport domain facts facts.graph decisions

/-- The authoritative complete-batch reduction of a list of facts. -/
def reduceComplete (domain : DomainReducer A K V R) (facts : List Fact) :
    Except ReduceError (ReductionReport A K V R) :=
  reduceSet domain (FactSet.fromFacts facts)

omit [DecidableEq V] [DecidableEq R] in
/-- The status a reduction gives to an identity, if it returns one. -/
def reportedStatus (result : Except ReduceError (ReductionReport A K V R))
    (id : FactId) : Option DecisionStatus :=
  match result with
  | .error _ => none
  | .ok report => (report.decisions.get? id).map FactDecision.status

end Reduce

end Hq
