import SqlTree.Query.Build

/-!
# Queries over a census

The demonstration queries of the command line, over tables of states, counties, senators and
committees.
-/

namespace SqlTree

/-- A query with a name and a line about it. -/
structure Demo where
  name : String
  about : String
  query : Except Error Query

namespace Census

/-- The states. -/
def states : Query := .ofTable "states"

/-- The counties of the states. -/
def counties : Query := .ofTable "counties"

/-- The senators of the states. -/
def senators : Query := .ofTable "senators"

/-- The committees and their chairmen. -/
def committees : Query := .ofTable "committees"

/-- The test that two columns are equal. -/
def equal (left right : Column) : Column := left.combine .eq (.column right)

/-- Counties above two million people, largest first. -/
def largestCounties : Except Error Query := do
  let population := counties.column "population_2010"
  let large ← counties.filter (population.combine .gt (.literal (.int 2000000)))
  let shown := large.selectColumns [counties.column "statecode", counties.column "name", population]
  return (← shown.orderBy population).reverse

/-- Number of counties in each state. -/
def countiesPerState : Except Error Query := do
  let code := counties.column "statecode"
  return (← counties.groupBy code).selectColumns [code, counties.rowCount]

/-- The numbers of counties of the states, as a table. -/
def countiesByState : Except Error Query := do
  let grouped ← counties.groupBy (counties.column "statecode")
  return .ofQuery (grouped.selectAs "num_counties" counties.rowCount)

/-- Average number of counties per state. -/
def avgCounties : Except Error Query := do
  let numbers ← countiesByState
  return numbers.selectColumns [← (numbers.column "num_counties").withAggregate .avg]

/-- Number of states with more counties than average. -/
def aboveAvgStates : Except Error Query := do
  let code := counties.column "statecode"
  let grouped ← counties.groupBy code
  let many := grouped.having (counties.rowCount.combine .gt (.query (← avgCounties)))
  let codes := Query.ofQuery (many.selectAs "num_states" code)
  return codes.selectColumns [← (codes.column "num_states").withAggregate .count]

/-- States whose population differs from the sum of their counties. -/
def popMismatch : Except Error Query := do
  let ofState ← counties.filter (equal (counties.column "statecode") (states.column "statecode"))
  let sum := ofState.selectColumns [← (counties.column "population_2010").withAggregate .sum]
  let differing ← states.filter ((states.column "population_2010").combine .ne (.query sum))
  return differing.selectColumns [states.column "statecode"]

/-- West Virginia counties that lost population since 1950. -/
def wvShrinking : Except Error Query := do
  let before := counties.column "population_1950"
  let after := counties.column "population_2010"
  let code := states.column "statecode"
  let joined ← counties.joinOn states (equal code (counties.column "statecode"))
  let inState := code.combine .eq (.literal (.string "WV"))
  let lost := before.combine .gt (.column after)
  let shrinking ← joined.filter (inState.combine .and (.column lost))
  return shrinking.selectColumns [counties.column "name", before.combine .sub (.column after)]

/-- States without a senator chairing a committee. -/
def noChairmen : Except Error Query := do
  let chairmen ← senators.joinOn committees
    (equal (senators.column "name") (committees.column "chairman"))
  let withChairmen := chairmen.selectColumns [senators.column "statecode"]
  let among := (states.column "statecode").combine .isIn (.query withChairmen)
  return (← states.filter (← among.withUnary .not)).selectColumns [states.column "statecode"]

/-- States with a senator chairing a subcommittee. -/
def chairmenStates : Except Error Query := do
  let all := committees.select [⟨.literal (.int 1), none⟩]
  let chaired ← all.filter (equal (committees.column "chairman") (senators.column "name"))
  let subcommittees ← chaired.filter
    (← (committees.column "parent_committee").withNullTest .isNotNull)
  return ((senators.whereExists subcommittees).selectColumns [senators.column "statecode"]).dedup

/-- Subcommittees chaired by the chairman of their parent. -/
def subcommittees : Except Error Query := do
  let parent := Query.ofTableAs "committees" "pc"
  let sub := Query.ofTableAs "committees" "sc"
  let isParent := equal (parent.column "id") (sub.column "parent_committee")
  let sameChairman := equal (parent.column "chairman") (sub.column "chairman")
  let joined ← sub.joinOn parent (isParent.combine .and (.column sameChairman))
  return joined.selectColumns
    [parent.column "id", parent.column "chairman", sub.column "id", sub.column "chairman"]

/-- Parent committee chairmen born after their subcommittee chairman. -/
def elderChairmen : Except Error Query := do
  let parent := Query.ofTableAs "committees" "pc"
  let sub := Query.ofTableAs "committees" "sc"
  let first := Query.ofTableAs "senators" "s1"
  let second := Query.ofTableAs "senators" "s2"
  let withParent ← sub.joinOn parent (equal (parent.column "id") (sub.column "parent_committee"))
  let withFirst ← withParent.joinOn first (equal (first.column "name") (parent.column "chairman"))
  let withSecond ← withFirst.joinOn second (equal (second.column "name") (sub.column "chairman"))
  let younger := (first.column "born").combine .gt (.column (second.column "born"))
  let later ← withSecond.filter younger
  return later.selectColumns
    [parent.column "id", parent.column "chairman", first.column "born", sub.column "id",
      sub.column "chairman", second.column "born"]

/-- All demonstration queries. -/
def demos : List Demo :=
  [⟨"largest-counties", "Counties above two million people, largest first", largestCounties⟩,
    ⟨"counties-per-state", "Number of counties in each state", countiesPerState⟩,
    ⟨"avg-counties", "Average number of counties per state", avgCounties⟩,
    ⟨"above-avg-states", "Number of states with more counties than average", aboveAvgStates⟩,
    ⟨"pop-mismatch", "States whose population differs from the sum of their counties",
      popMismatch⟩,
    ⟨"wv-shrinking", "West Virginia counties that lost population since 1950", wvShrinking⟩,
    ⟨"no-chairmen", "States without a senator chairing a committee", noChairmen⟩,
    ⟨"chairmen-states", "States with a senator chairing a subcommittee", chairmenStates⟩,
    ⟨"subcommittees", "Subcommittees chaired by the chairman of their parent", subcommittees⟩,
    ⟨"elder-chairmen", "Parent committee chairmen born after their subcommittee chairman",
      elderChairmen⟩]

/-- The demonstration query of a name. -/
def demo? (name : String) : Option Demo := demos.find? fun d => d.name == name

end Census

end SqlTree
