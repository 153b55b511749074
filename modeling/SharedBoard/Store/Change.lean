import SharedBoard.Uuid

/-! What a call rebuilt, as an observer sees who compares identities of shared parts rather than
their content. A part that is rebuilt with equal content counts as rebuilt.
-/

namespace SharedBoard

/-- The parts of a board that were rebuilt: the table of groups, single groups that were put into
it or taken out of it, and the roster.
-/
structure Change where
  table : Bool
  groups : List GroupId
  roster : Bool
deriving DecidableEq, Inhabited

namespace Change

def nothing : Change :=
  ⟨false, [], false⟩

def ofRoster : Change :=
  ⟨false, [], true⟩

/-- The table was rebuilt, and in it the given groups. -/
def ofGroups (groups : List GroupId) : Change :=
  ⟨true, groups, false⟩

/-- What two calls after one another rebuilt. -/
def append (first second : Change) : Change :=
  ⟨first.table || second.table, first.groups ++ second.groups, first.roster || second.roster⟩

instance : Append Change where
  append := append

/-- Every part is the very same as before. -/
def isNothing (change : Change) : Bool :=
  !change.table && !change.roster

/-- A call that rebuilds nothing adds nothing, since lists and truth values have units. -/
@[simp] theorem append_nothing (change : Change)
    : change ++ nothing = change := by
  change append change nothing = change
  simp only [append, nothing, Bool.or_false, List.append_nil]

/-- A call after one that rebuilds nothing counts alone, since lists and truth values have units.
-/
@[simp] theorem nothing_append (change : Change)
    : nothing ++ change = change := by
  change append nothing change = change
  simp only [append, nothing, Bool.false_or, List.nil_append]

end Change

end SharedBoard
