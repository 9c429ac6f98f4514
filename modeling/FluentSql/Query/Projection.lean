import FluentSql.Query.Basic

/-!
# The projection in effect

Of several projections in a segment one is in effect: the last one that is more than the wildcard,
or the first of all if none is. The others are superseded, and a query without them stands for the
same SQL.
-/

namespace FluentSql

namespace Query

/-- The columns are the wildcard and nothing more. -/
def isAllColumns : List Expr → Bool
  | [e] => e.isWildcard
  | _ => false

/-- The projections of the last segment, each with its index among the operations. -/
def projections (q : Query) : List (Nat × List Expr) :=
  q.operations.zipIdx.filterMap fun
    | (.step (.select columns), index) => some (index, columns)
    | _ => none

/-- The projection in effect in the last segment, with its index among the operations. -/
def projection (q : Query) : Option (Nat × List Expr) :=
  (q.projections.reverse.find? fun (_, columns) => !isAllColumns columns).or q.projections.head?

/-- The index of the projection in effect. -/
def projectionIndex (q : Query) : Option Nat :=
  q.projection.map (·.1)

/-- The columns of the projection in effect. -/
def projectedColumns (q : Query) : Option (List Expr) :=
  q.projection.map (·.2)

/-- In `segment`, a step after `prior` is a projection that is not in effect; of a segment without a
source, any projection, because the one in effect is its start. -/
def isSuperseded (segment prior : Query) : Step → Bool
  | .select _ => segment.projectionIndex != some prior.operations.length || segment.source.isNone
  | _ => false

/-- The query, of which `segment` is the last segment up to its end, without superseded
projections at any depth. -/
def prunedIn (segment : Query) : Query → Query
  | sourceless =>
    match segment.projectedColumns with
    | some columns => step sourceless (.select columns)
    | none => sourceless
  | table name => table name
  | subquery inner => subquery (prunedIn inner inner)
  | step prior next =>
    if segment.isSuperseded prior next then prunedIn segment prior
    else step (prunedIn segment prior) next
  | join prior other on kind => join (prunedIn segment prior) (prunedIn other other) on kind

/-- The query without superseded projections at any depth; a segment without a source starts with
its projection. -/
def pruned (q : Query) : Query :=
  prunedIn q q

end Query

end FluentSql
