/-!
# The assignment problem

A square table of costs is given by rows.  An assignment gives every row a column of its own, and
costs the sum of the entries it picks; the least cost of an assignment is wanted.

Rows are assigned one after the other.  A new row takes the cheapest route to a free column, where a
route may push assigned rows on to other columns.  In the end a *price* for every row and every
column is read off in the same way.  Prices that no entry falls below, and that add up to the cost
of the assignment, prove that no assignment costs less, so the outcome can be checked without
looking at how it was found.

* `leastCost` — the least cost by looking at every assignment.
* `Assignment.Optimal` — the check.
* `Assignment.find` — the search.
-/

namespace CausalUpdate

/-! ## All assignments -/

/-- Every item of a list together with the others. -/
def picks {α : Type} : List α → List (α × List α)
  | [] => []
  | a :: as => (a, as) :: (picks as).map fun (b, bs) => (b, a :: bs)

/-- The least cost of giving every item of the first list an item of the second one. -/
def leastCost {α β : Type} (cost : α → β → Nat) : List α → List β → Nat
  | [], _ => 0
  | a :: as, bs => ((picks bs).map fun (b, rest) => cost a b + leastCost cost as rest).min?.getD 0

/-! ## Checked assignments -/

/-- A column for every row, and prices. -/
structure Assignment where
  columns : List Nat
  rowPrices : List Int
  columnPrices : List Int
deriving Repr

namespace Assignment

def total (x : Assignment) (costs : List (List Nat)) : Nat :=
  (List.zipWith (fun row j => row[j]?.getD 0) costs x.columns).foldr (· + ·) 0

/-- No entry is less than the prices of its row and its column together. -/
def Affordable (x : Assignment) (costs : List (List Nat)) : Prop :=
  ∀ rp ∈ costs.zip x.rowPrices, ∀ ep ∈ rp.1.zip x.columnPrices, rp.2 + ep.2 ≤ (ep.1 : Int)

instance (x : Assignment) (costs : List (List Nat)) : Decidable (x.Affordable costs) :=
  inferInstanceAs (Decidable (∀ rp ∈ costs.zip x.rowPrices, ∀ ep ∈ rp.1.zip x.columnPrices, _))

/-- Every row has a column of its own and a price, every column has a price, no entry falls below
its prices, and the prices add up to the cost. -/
def Optimal (x : Assignment) (costs : List (List Nat)) : Prop :=
  x.columns.isPerm (List.range costs.length) ∧
    x.rowPrices.length = costs.length ∧ x.columnPrices.length = costs.length ∧
    x.Affordable costs ∧ (x.total costs : Int) = (x.rowPrices ++ x.columnPrices).foldr (· + ·) 0

instance (x : Assignment) (costs : List (List Nat)) : Decidable (x.Optimal costs) :=
  inferInstanceAs (Decidable (_ ∧ _ ∧ _ ∧ _ ∧ _))

/-! ## Search -/

/-- A way to a column: what it costs, and the columns it passes, the latest first. -/
structure Route where
  cost : Int
  columns : List Nat
deriving Inhabited

def entry (costs : Array (Array Nat)) (i j : Nat) : Int :=
  (costs[i]?.bind fun row => row[j]?).getD 0

/-- The cheaper of a route to column `j` and the route that pushes row `i` there from the column it
has. -/
def shorten (costs : Array (Array Nat)) (routes : Array Route) (j : Nat) (best : Route)
    (pair : Nat × Nat) : Route :=
  let (i, column) := pair
  let via := routes[column]?.getD default
  let cost := via.cost + entry costs i j - entry costs i column
  if cost < best.cost then ⟨cost, j :: via.columns⟩ else best

/-- The routes after one more push of assigned rows. -/
def shortenAll (costs : Array (Array Nat)) (pairs : List (Nat × Nat)) (routes : Array Route) :
    Array Route :=
  routes.mapIdx fun j best => pairs.foldl (shorten costs routes j) best

/-- The routes after at most so many pushes; it ends early if a push changes nothing. -/
def settle (costs : Array (Array Nat)) (pairs : List (Nat × Nat)) :
    Nat → Array Route → Array Route
  | 0, routes => routes
  | pushes + 1, routes =>
    let next := shortenAll costs pairs routes
    if next.map Route.cost = routes.map Route.cost then routes else settle costs pairs pushes next

/-- The pairs of rows and columns after row `i` went along a route, pushing rows on. -/
def reassign (i : Nat) : List Nat → List (Nat × Nat) → List (Nat × Nat)
  | [], pairs => pairs
  | j :: js, pairs =>
    let others := pairs.filter fun p => p.2 ≠ j
    match pairs.find? fun p => p.2 = j with
    | none => (i, j) :: others
    | some (pushed, _) => reassign pushed js ((i, j) :: others)

/-- The cheapest of the routes that end in a column that no pair has. -/
def cheapest? (pairs : List (Nat × Nat)) (routes : List Route) : Option Route :=
  let free := routes.zipIdx.filter fun (_, j) => !pairs.any fun p => p.2 = j
  free.foldl (fun best (route, _) =>
    match best with
    | none => some route
    | some b => if route.cost < b.cost then some route else best) none

/-- The pairs after one more row is assigned. -/
def assignRow (costs : Array (Array Nat)) (pairs : List (Nat × Nat)) (i : Nat) :
    List (Nat × Nat) :=
  let n := costs.size
  let start := (Array.range n).map fun j => (⟨entry costs i j, [j]⟩ : Route)
  match cheapest? pairs (settle costs pairs n start).toList with
  | none => pairs
  | some route => reassign i route.columns.reverse pairs

/-- An assignment of all rows with its prices. -/
def find (costs : List (List Nat)) : Assignment :=
  let table := (costs.map List.toArray).toArray
  let n := table.size
  let pairs := (List.range n).foldl (assignRow table) []
  let free := (Array.range n).map fun j => (⟨0, [j]⟩ : Route)
  let columnPrices := (settle table pairs n free).toList.map Route.cost
  let columns := (List.range n).map fun i => (pairs.lookup i).getD 0
  let rowPrices := columns.zipIdx.map fun (j, i) =>
    entry table i j - columnPrices[j]?.getD 0
  { columns, rowPrices, columnPrices }

end Assignment

/-- The least cost of an assignment.  An assignment that passes the check is as good as a look at
all of them. -/
def assignmentCost {α β : Type} (cost : α → β → Nat) (as : List α) (bs : List β) : Nat :=
  let costs := as.map fun a => bs.map (cost a)
  let x := Assignment.find costs
  if x.Optimal costs then x.total costs else leastCost cost as bs

end CausalUpdate
