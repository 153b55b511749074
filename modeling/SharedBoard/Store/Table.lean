import SharedBoard.Group

/-! The groups of a board, each under its own identifier. The table keeps them in the order of
their identifiers, so that two tables that hold the same groups are equal. Its view is look-up by
identifier, and every operation is described by what it does to that view.
-/

namespace SharedBoard

/-- Groups with distinct identifiers, in ascending order. -/
structure GroupTable (κ : Type) where
  toList : List (Group κ)
  ascending : toList.Pairwise (fun left right => left.id < right.id)

namespace GroupTable

variable {κ : Type}

-----------------------------------------------------------------------------------------
-- Operations
-----------------------------------------------------------------------------------------

def empty : GroupTable κ :=
  ⟨[], .nil⟩

instance : Inhabited (GroupTable κ) :=
  ⟨empty⟩

def find? (table : GroupTable κ) (id : GroupId) : Option (Group κ) :=
  table.toList.find? (·.id == id)

/-- Whether the table has a group with an identifier. -/
def contains (table : GroupTable κ) (id : GroupId) : Bool :=
  (table.find? id).isSome

/-- A list of groups with a group in its place, instead of the one with its identifier. -/
def insertInto (group : Group κ) : List (Group κ) → List (Group κ)
  | [] => [group]
  | head :: rest =>
      if group.id < head.id then group :: head :: rest
      else if group.id = head.id then group :: rest
      else head :: insertInto group rest

/-- A group in the result of an insertion is the new one or an old one, by induction. -/
theorem mem_insertInto {group member : Group κ} {groups : List (Group κ)}
    (found : member ∈ insertInto group groups)
    : member = group ∨ member ∈ groups := by
  induction groups with
  | nil => simpa [insertInto] using found
  | cons head rest ih =>
      simp only [insertInto] at found
      split at found
      · simpa using found
      · split at found
        · rcases List.mem_cons.mp found with same | old
          · exact .inl same
          · exact .inr (List.mem_cons_of_mem _ old)
        · rcases List.mem_cons.mp found with same | later
          · exact .inr (same ▸ List.mem_cons_self)
          · exact (ih later).imp_right (List.mem_cons_of_mem _)

/-- An insertion keeps a list ascending, by induction over where the group goes. -/
theorem insertInto_ascending {group : Group κ} {groups : List (Group κ)}
    (ascending : groups.Pairwise (fun left right => left.id < right.id))
    : (insertInto group groups).Pairwise (fun left right => left.id < right.id) := by
  induction groups with
  | nil => simp [insertInto]
  | cons head rest ih =>
      obtain ⟨headBelow, restAscending⟩ := List.pairwise_cons.mp ascending
      simp only [insertInto]
      split
      · next before =>
          refine List.pairwise_cons.mpr ⟨?_, ascending⟩
          intro member found
          rcases List.mem_cons.mp found with rfl | later
          · exact before
          · exact Nat.lt_trans before (headBelow member later)
      · next notBefore =>
          split
          · next same =>
              exact List.pairwise_cons.mpr ⟨fun member found => same ▸ headBelow member found,
                restAscending⟩
          · next other =>
              refine List.pairwise_cons.mpr ⟨?_, ih restAscending⟩
              intro member found
              rcases mem_insertInto found with rfl | old
              · have differs : head.id.toNat ≠ member.id.toNat :=
                  fun same => other (Uuid.toNat_inj.mp same).symm
                rw [Uuid.lt_iff] at notBefore ⊢
                omega
              · exact headBelow member old

/-- Put a group into the table, instead of the one with its identifier if there is one. -/
def insert (table : GroupTable κ) (group : Group κ) : GroupTable κ :=
  ⟨insertInto group table.toList, insertInto_ascending table.ascending⟩

/-- Take the group with an identifier out of the table. -/
def erase (table : GroupTable κ) (id : GroupId) : GroupTable κ :=
  ⟨table.toList.filter (·.id != id), table.ascending.filter _⟩

/-- The table with the given groups; of several with one identifier the last stays. -/
def ofList (groups : List (Group κ)) : GroupTable κ :=
  groups.foldl insert empty

def size (table : GroupTable κ) : Nat :=
  table.toList.length

-----------------------------------------------------------------------------------------
-- The view
-----------------------------------------------------------------------------------------

/-- A group is found under its own identifier, since the search compares identifiers. -/
theorem id_of_find? {table : GroupTable κ} {id : GroupId} {group : Group κ}
    (found : table.find? id = some group)
    : group.id = id := by
  simpa using List.find?_some found

/-- The groups of a table are those that are found, since identifiers are distinct. -/
theorem mem_toList_iff {table : GroupTable κ} {group : Group κ}
    : group ∈ table.toList ↔ table.find? group.id = some group := by
  constructor
  · intro member
    obtain ⟨groups, ascending⟩ := table
    simp only [find?] at member ⊢
    induction groups with
    | nil => simp at member
    | cons head rest ih =>
        obtain ⟨headBelow, restAscending⟩ := List.pairwise_cons.mp ascending
        rcases List.mem_cons.mp member with rfl | later
        · simp
        · have below := headBelow group later
          have differs : (head.id == group.id) = false := by
            rw [beq_eq_false_iff_ne]
            intro same
            rw [same, Uuid.lt_iff] at below
            omega
          rw [List.find?_cons, differs]
          exact ih restAscending later
  · intro found
    exact List.mem_of_find?_eq_some found

/-- Nothing is found in the table without groups. -/
@[simp] theorem find?_empty (id : GroupId)
    : (empty : GroupTable κ).find? id = none :=
  rfl

/-- After an insertion the new group is found under its identifier and every other group as
before, by induction over where it goes.
-/
theorem find?_insert (table : GroupTable κ) (group : Group κ) (id : GroupId)
    : (table.insert group).find? id = if group.id = id then some group else table.find? id := by
  obtain ⟨groups, ascending⟩ := table
  simp only [find?, insert]
  clear ascending
  induction groups with
  | nil =>
      simp only [insertInto, List.find?_cons, List.find?_nil]
      split <;> simp_all
  | cons head rest ih =>
      simp only [insertInto]
      split
      · simp only [List.find?_cons]
        split <;> simp_all
      · split
        · next same =>
            simp only [List.find?_cons, ← same]
            split <;> simp_all
        · next other =>
            rw [List.find?_cons, List.find?_cons]
            split
            · next here =>
                have here : head.id = id := by simpa using here
                rw [if_neg (fun same => other (same.trans here.symm))]
            · exact ih

/-- After an insertion the new group is found. -/
@[simp] theorem find?_insert_self (table : GroupTable κ) (group : Group κ)
    : (table.insert group).find? group.id = some group := by
  rw [find?_insert, if_pos rfl]

/-- An insertion leaves all other identifiers as they were. -/
theorem find?_insert_of_ne {table : GroupTable κ} {group : Group κ} {id : GroupId}
    (other : group.id ≠ id)
    : (table.insert group).find? id = table.find? id := by
  rw [find?_insert, if_neg other]

/-- After an erasure nothing is found under the identifier and every other group as before. -/
theorem find?_erase (table : GroupTable κ) (gone id : GroupId)
    : (table.erase gone).find? id = if gone = id then none else table.find? id := by
  simp only [find?, erase, List.find?_filter]
  split
  · next same =>
      subst same
      simp
  · next other =>
      congr 1
      funext group
      by_cases here : group.id = id
      · simp [here, Ne.symm other]
      · simp [here]

/-- Tables in which the same groups are found are equal, since both list them in order. -/
theorem ext_find? {left right : GroupTable κ}
    (same : ∀ id, left.find? id = right.find? id)
    : left = right := by
  have members : ∀ group, group ∈ left.toList ↔ group ∈ right.toList := by
    intro group
    rw [mem_toList_iff, mem_toList_iff, same]
  have distinct : ∀ table : GroupTable κ, table.toList.Nodup := by
    intro table
    refine table.ascending.imp ?_
    intro first second below same
    rw [same, Uuid.lt_iff] at below
    omega
  have perm : left.toList.Perm right.toList :=
    (List.perm_ext_iff_of_nodup (distinct left) (distinct right)).mpr members
  have lists : left.toList = right.toList := by
    refine perm.eq_of_pairwise ?_ left.ascending right.ascending
    intro first second _ _ below above
    rw [Uuid.lt_iff] at below above
    omega
  obtain ⟨leftGroups, _⟩ := left
  obtain ⟨rightGroups, _⟩ := right
  cases lists
  rfl

-----------------------------------------------------------------------------------------
-- Posts
-----------------------------------------------------------------------------------------

/-- The place of a post: its group and its index there. A hint names the group to look in first;
without it, or if the post is not there, the groups are searched in order.
-/
def locate? (table : GroupTable κ) (post : PostId) (hint : Option GroupId)
    : Option (GroupId × Nat) :=
  match hint.bind (fun id => (table.find? id).bind (·.indexOf? post)), hint with
  | some index, some id => some (id, index)
  | _, _ => table.toList.findSome? (fun group => (group.indexOf? post).map (group.id, ·))

end GroupTable

end SharedBoard
