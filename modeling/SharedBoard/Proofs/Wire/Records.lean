import SharedBoard.Proofs.Instant.Text
import SharedBoard.Wire.Command
import SharedBoard.Wire.Frame
import SharedBoard.Wire.Response

/-! Written records are read back from their documents. A record is written with names that it
knows, each once and in order, so that all its members are found again.
-/

namespace SharedBoard

namespace Json

-----------------------------------------------------------------------------------------
-- Fields
-----------------------------------------------------------------------------------------

/-- All members of an object are found if their names are known and stand once. -/
theorem objectFields?_of_known {names : List String} {members : List (String × Json)}
    (known : ∀ member ∈ members, member.1 ∈ names) (once : (members.map (·.1)).Nodup)
    : objectFields? names (.obj members) = some members := by
  have all : members.filter (fun member => names.contains member.1) = members :=
    List.filter_eq_self.mpr fun member found => List.contains_iff_mem.mpr (known member found)
  rw [objectFields?]
  simp only [all]
  rw [if_pos once]

/-- All members of an object are found if their names are some of the known ones, in order. -/
theorem objectFields?_of_sublist {names : List String} {members : List (String × Json)}
    (ordered : (members.map (·.1)).Sublist names) (distinct : names.Nodup)
    : objectFields? names (.obj members) = some members :=
  objectFields?_of_known (fun _ found => ordered.subset (List.mem_map_of_mem found))
    (ordered.nodup distinct)

/-- A record that is an object has the fields of that object. -/
theorem fields?_of_sublist {names : List String} {members : List (String × Json)}
    (ordered : (members.map (·.1)).Sublist names) (distinct : names.Nodup)
    : fields? names (.obj members) = some members :=
  objectFields?_of_sublist ordered distinct

/-- The members of an object can be kept when each value can, by induction over them. -/
theorem membersKeepable_of_forall {room : Nat} {members : List (String × Json)}
    (each : ∀ member ∈ members, member.2.isKeepable room = true)
    : membersKeepable room members = true := by
  induction members with
  | nil => rfl
  | cons member rest ih =>
      obtain ⟨first, others⟩ := List.forall_mem_cons.mp each
      rw [membersKeepable, first, ih others, Bool.and_true]

/-- A record that stands flat beside others is found if what is set aside for it can be kept. -/
theorem flatFields?_of_known {level : Nat} {direct flat : List String}
    {members : List (String × Json)}
    (keepable : ∀ member ∈ members, member.1 ∉ direct →
      member.2.isKeepable (nestingLimit - level) = true)
    (known : ∀ member ∈ members, member.1 ∈ direct ++ flat) (once : (members.map (·.1)).Nodup)
    : flatFields? level direct flat (.obj members) = some members := by
  have aside : membersKeepable (nestingLimit - level)
      (members.filter (fun member => !direct.contains member.1)) = true := by
    refine membersKeepable_of_forall fun member found => ?_
    obtain ⟨inside, other⟩ := List.mem_filter.mp found
    exact keepable member inside (by simpa using other)
  rw [flatFields?]
  simp only [aside, if_true]
  exact objectFields?_of_known known once

/-- A field that may be absent has its name or none. -/
theorem names_memberIfAny {α : Type} (name : String) (write : α → Json) (value : Option α)
    : ((memberIfAny name write value).map (·.1)).Sublist [name] := by
  cases value with
  | none => exact List.nil_sublist _
  | some value => exact List.Sublist.refl _

/-- A field that may be absent is found by its name only. -/
theorem lookup_memberIfAny {α : Type} (wanted name : String) (write : α → Json) (value : Option α)
    : (memberIfAny name write value).lookup wanted
      = if wanted = name then value.map write else none := by
  cases value with
  | none => simp [memberIfAny]
  | some value =>
      by_cases same : wanted = name
      · simp [memberIfAny, same]
      · simp [memberIfAny, List.lookup_cons, beq_eq_false_iff_ne.mpr same, same]

/-- A value that is given is read. -/
theorem nullable?_of_given {α : Type} {read : Json → Option α} {document : Json}
    (given : document.isNull = false)
    : document.nullable? read = (read document).map some := by
  cases document with
  | null => exact absurd given (by decide)
  | _ => rfl

/-- Nothing or a value that is not written as a null is read back. -/
theorem nullable?_ofOption {α : Type} {write : α → Json} {read : Json → Option α}
    (back : ∀ value, read (write value) = some value)
    (given : ∀ value, (write value).isNull = false) (value : Option α)
    : (ofOption write value).nullable? read = some value := by
  cases value with
  | none => rfl
  | some value => rw [ofOption, nullable?_of_given (given value), back, Option.map_some]

/-- A field that may be absent is read back from where it was found. -/
theorem Fields.optional?_memberIfAny {α : Type} {fields : Fields} {name : String}
    {write : α → Json} {read : Json → Option α} {value : Option α}
    (found : fields.lookup name = value.map write)
    (back : ∀ inside ∈ value, read (write inside) = some inside)
    (given : ∀ inside ∈ value, (write inside).isNull = false)
    : fields.optional? name read = some value := by
  rw [optional?, found]
  cases value with
  | none => rfl
  | some value =>
      show (write value).nullable? read = some (some value)
      rw [nullable?_of_given (given value rfl), back value rfl, Option.map_some]

/-- Values that are all read back are read back as a list, by induction on the list. -/
theorem list?_ofList {α : Type} {write : α → Json} {read : Json → Option α} {values : List α}
    (back : ∀ value ∈ values, read (write value) = some value)
    : (ofList write values).list? read = some values := by
  have mapped : (values.map write).mapM read = some values := by
    induction values with
    | nil => rfl
    | cons value rest ih =>
        have first := back value List.mem_cons_self
        have others := ih (fun other found => back other (List.mem_cons_of_mem value found))
        simp [first, others]
  exact mapped

@[simp] theorem str?_str (text : String) : (Json.str text).str? = some text :=
  rfl

@[simp] theorem bool?_bool (value : Bool) : (Json.bool value).bool? = some value :=
  rfl

/-- Written moments that may be missing are read back. -/
@[simp] theorem nullable?_ofInstants (instant : Option Instant)
    : (ofOption .ofInstant instant).nullable? instant? = some instant :=
  nullable?_ofOption instant?_ofInstant (fun _ => rfl) instant

/-- Written texts that may be missing are read back. -/
@[simp] theorem nullable?_ofTexts (text : Option String)
    : (ofOption .str text).nullable? str? = some text :=
  nullable?_ofOption str?_str (fun _ => rfl) text

end Json

-----------------------------------------------------------------------------------------
-- People
-----------------------------------------------------------------------------------------

/-- A written user is read back from fields that begin with its own. -/
theorem User.ofFields?_members (user : User) (others : Json.Fields)
    : User.ofFields? (user.members ++ others) = some user := by
  simp [User.ofFields?, User.members, Json.Fields.required?, Json.Fields.optional?,
    Json.Fields.withDefault?, List.lookup_cons]

/-- A written user is read back. -/
theorem User.ofJson?_toJson (user : User) : User.ofJson? user.toJson = some user := by
  have fields : user.toJson.fields? User.fieldNames = some user.members :=
    Json.fields?_of_sublist (List.Sublist.refl _) (by decide)
  have read := user.ofFields?_members []
  rw [List.append_nil] at read
  rw [User.ofJson?, fields, Option.bind_some, read]

/-- A written role is read back, by cases on the role. -/
theorem Role.ofJson?_toJson (role : Role) : Role.ofJson? role.toJson = some role := by
  cases role <;> decide

/-- A written membership is read back. -/
theorem Membership.ofJson?_toJson (membership : Membership)
    : Membership.ofJson? membership.toJson = some membership := by
  have fields : membership.toJson.fields? ["role", "added_at", "updated_at"] = some _ :=
    Json.fields?_of_sublist (List.Sublist.refl _) (by decide)
  simp [ofJson?, fields, Json.Fields.required?, Json.Fields.optional?, List.lookup_cons,
    Role.ofJson?_toJson]

/-- The fields of a user hold no others, so that they can be kept anywhere. -/
theorem User.isKeepable_members (user : User) (room : Nat)
    : ∀ member ∈ user.members, member.2.isKeepable room = true := by
  have option {α : Type} {write : α → Json} (leaf : ∀ value, (write value).isKeepable room = true)
      (value : Option α) : (Json.ofOption write value).isKeepable room = true := by
    cases value with
    | none => rfl
    | some value => exact leaf value
  simp only [members, List.forall_mem_cons]
  exact ⟨rfl, rfl, option (fun _ => rfl) _, rfl, rfl, option (fun _ => rfl) _,
    option (fun _ => rfl) _, fun _ none => absurd none List.not_mem_nil⟩

/-- A written member is read back at every nesting level, since the fields of a user hold no others.
-/
theorem Member.ofJson?_toJson (level : Nat) (member : Member)
    : Member.ofJson? level member.toJson = some member := by
  have names : (member.user.members ++ [("membership", member.membership.toJson)]).map (·.1)
      = User.fieldNames ++ ["membership"] := rfl
  have fields : member.toJson.flatFields? level ["membership"] User.fieldNames
      = some (member.user.members ++ [("membership", member.membership.toJson)]) := by
    refine Json.flatFields?_of_known (fun entry found other => ?_) (fun entry found => ?_) ?_
    · rcases List.mem_append.mp found with inUser | last
      · exact member.user.isKeepable_members _ entry inUser
      · obtain rfl := List.mem_singleton.mp last
        exact absurd (List.mem_singleton.mpr rfl) other
    · have := List.mem_map_of_mem (f := (·.1)) found
      rw [names] at this
      exact (List.perm_append_comm.mem_iff).mp this
    · rw [names]
      decide
  have user := member.user.ofFields?_members [("membership", member.membership.toJson)]
  have membership : Json.Fields.required?
      (member.user.members ++ [("membership", member.membership.toJson)]) "membership"
      Membership.ofJson? = some member.membership := by
    simp [Json.Fields.required?, User.members, List.lookup_cons, Membership.ofJson?_toJson]
  simp [ofJson?, fields, user, membership]

/-- A written board is read back at every nesting level. -/
theorem Board.ofJson?_toJson (level : Nat) (board : Board)
    : Board.ofJson? level board.toJson = some board := by
  have fields : board.toJson.fields? ["id", "name", "description", "user_id", "members",
      "created_at", "updated_at"] = some _ :=
    Json.fields?_of_sublist (List.Sublist.refl _) (by decide)
  have members : (Json.ofList Member.toJson board.members).list? (Member.ofJson? (level + 2))
      = some board.members :=
    Json.list?_ofList fun member _ => member.ofJson?_toJson _
  simp [ofJson?, fields, Json.Fields.required?, Json.Fields.optional?, Json.Fields.withDefault?,
    List.lookup_cons, members]

-----------------------------------------------------------------------------------------
-- Posts and groups
-----------------------------------------------------------------------------------------

/-- A written color is read back, whether it was set aside or not, by checking the palette. -/
theorem Color.ofJson?_toJson (color : Color)
    : Color.ofJson? color.toJson = some color ∧ Color.ofKeptJson? color.toJson = some color := by
  cases color <;> decide

section

variable {κ : Type} {writeKey : κ → Json} {readKey : Json → Option κ}

/-- A written post is read back if its key is. -/
theorem Post.ofJson?_toJson {post : Post κ} (back : readKey (writeKey post.key) = some post.key)
    : Post.ofJson? readKey (post.toJson writeKey) = some post := by
  have fields : (post.toJson writeKey).fields? ["id", "board_id", "user_id", "content", "color",
      "height", "post_group_id", "post_order", "created_at", "updated_at"] = some _ :=
    Json.fields?_of_sublist (List.Sublist.refl _) (by decide)
  simp [ofJson?, fields, Json.Fields.required?, List.lookup_cons, back, Color.ofJson?_toJson]

/-- A written group is read back if the keys of its posts are. -/
theorem Group.ofJson?_toJson {group : Group κ}
    (back : ∀ post ∈ group.posts, readKey (writeKey post.key) = some post.key)
    : Group.ofJson? readKey (group.toJson writeKey) = some group := by
  have fields : (group.toJson writeKey).fields? ["id", "board_id", "title", "pos_x", "pos_y",
      "z_index", "posts", "created_at", "updated_at"] = some _ :=
    Json.fields?_of_sublist (List.Sublist.refl _) (by decide)
  have posts : (Json.ofList (Post.toJson writeKey) group.posts).list? (Post.ofJson? readKey)
      = some group.posts :=
    Json.list?_ofList fun post found => Post.ofJson?_toJson (back post found)
  simp [ofJson?, fields, Json.Fields.required?, Json.Fields.withDefault?, List.lookup_cons, posts]

end

/-- The fields that a change of a group sets stand in order. -/
theorem GroupPatch.names_members (patch : GroupPatch)
    : (patch.members.map (·.1)).Sublist GroupPatch.fieldNames := by
  have ordered := ((((List.Sublist.refl ["id"]).append
    (Json.names_memberIfAny "title" .str patch.title)).append
    (Json.names_memberIfAny "pos_x" .ofInt32 patch.x)).append
    (Json.names_memberIfAny "pos_y" .ofInt32 patch.y)).append
    (Json.names_memberIfAny "z_index" .ofInt32 patch.z) |>.append
    (Json.names_memberIfAny "updated_at" .ofInstant patch.updatedAt)
  simpa [members, fieldNames] using ordered

/-- A field of a change of a group is found where it is set. -/
theorem GroupPatch.lookup_members (patch : GroupPatch)
    : patch.members.lookup "title" = patch.title.map .str
      ∧ patch.members.lookup "pos_x" = patch.x.map .ofInt32
      ∧ patch.members.lookup "pos_y" = patch.y.map .ofInt32
      ∧ patch.members.lookup "z_index" = patch.z.map .ofInt32
      ∧ patch.members.lookup "updated_at" = patch.updatedAt.map .ofInstant := by
  simp [members, Json.lookup_memberIfAny, List.lookup_append, List.lookup_cons]

/-- A change of a group is read back from fields that begin with others. -/
theorem GroupPatch.ofFields?_members (patch : GroupPatch) {others : Json.Fields}
    (other : ∀ field ∈ others, field.1 ∉ GroupPatch.fieldNames)
    : GroupPatch.ofFields? (others ++ patch.members) = some patch := by
  have found {name : String} (known : name ∈ GroupPatch.fieldNames) {document : Option Json}
      (inPatch : patch.members.lookup name = document)
      : (others ++ patch.members).lookup name = document := by
    have skipped : others.lookup name = none := by
      refine List.lookup_eq_none_iff.mpr fun field inOthers => ?_
      refine bne_iff_ne.mpr fun same => other field inOthers ?_
      rw [← same]
      exact known
    rw [List.lookup_append, skipped, Option.none_or, inPatch]
  have id : (others ++ patch.members).lookup "id" = some (.ofUuid patch.id) :=
    found (by decide) rfl
  have optional {α : Type} {name : String} {write : α → Json} {read : Json → Option α}
      {value : Option α} (known : name ∈ GroupPatch.fieldNames)
      (inPatch : patch.members.lookup name = value.map write)
      (back : ∀ inside, read (write inside) = some inside)
      (given : ∀ inside, (write inside).isNull = false)
      : Json.Fields.optional? (others ++ patch.members) name read = some value :=
    Json.Fields.optional?_memberIfAny (found known inPatch) (fun inside _ => back inside)
      (fun inside _ => given inside)
  obtain ⟨title, x, y, z, updatedAt⟩ := patch.lookup_members
  simp [ofFields?, Json.Fields.required?, id,
    optional (by decide) title Json.str?_str (fun _ => rfl),
    optional (by decide) x Json.int32?_ofInt32 (fun _ => rfl),
    optional (by decide) y Json.int32?_ofInt32 (fun _ => rfl),
    optional (by decide) z Json.int32?_ofInt32 (fun _ => rfl),
    optional (by decide) updatedAt Json.instant?_ofInstant (fun _ => rfl)]

/-- The fields of a change of a group hold no others, so that they can be kept anywhere. -/
theorem GroupPatch.isKeepable_members (patch : GroupPatch) (room : Nat)
    : ∀ member ∈ patch.members, member.2.isKeepable room = true := by
  have any {α : Type} {name : String} {write : α → Json} {value : Option α}
      (leaf : ∀ value, (write value).isKeepable room = true)
      : ∀ member ∈ Json.memberIfAny name write value, member.2.isKeepable room = true := by
    cases value with
    | none => exact fun member found => absurd found List.not_mem_nil
    | some value => exact List.forall_mem_singleton.mpr (leaf value)
  simp only [members, List.cons_append, List.forall_mem_cons, List.forall_mem_append]
  exact ⟨rfl, ⟨⟨⟨any fun _ => rfl, any fun _ => rfl⟩, any fun _ => rfl⟩, any fun _ => rfl⟩,
    any fun _ => rfl⟩

/-- A written change of a group is read back. -/
theorem GroupPatch.ofJson?_toJson (patch : GroupPatch)
    : GroupPatch.ofJson? patch.toJson = some patch := by
  have fields : patch.toJson.fields? GroupPatch.fieldNames = some patch.members :=
    Json.fields?_of_sublist patch.names_members (by decide)
  rw [ofJson?, fields, Option.bind_some]
  exact @ofFields?_members patch [] (by simp)

-----------------------------------------------------------------------------------------
-- Responses
-----------------------------------------------------------------------------------------

/-- A written response that carries a board is read back. -/
theorem BoardResponse.ofJson?_toJson (response : BoardResponse)
    : BoardResponse.ofJson? response.toJson = some response := by
  have fields : response.toJson.fields? ["result"] = some _ :=
    Json.fields?_of_sublist (List.Sublist.refl _) (by decide)
  simp [ofJson?, fields, Json.Fields.required?, Board.ofJson?_toJson]

/-- A written response that carries groups is read back if the keys of their posts are. -/
theorem GroupsResponse.ofJson?_toJson {κ : Type} {writeKey : κ → Json} {readKey : Json → Option κ}
    {response : GroupsResponse κ}
    (back : ∀ group ∈ response.result, ∀ post ∈ group.posts,
      readKey (writeKey post.key) = some post.key)
    : GroupsResponse.ofJson? readKey (response.toJson writeKey) = some response := by
  have fields : (response.toJson writeKey).fields? ["result"] = some _ :=
    Json.fields?_of_sublist (List.Sublist.refl _) (by decide)
  have groups : (Json.ofList (Group.toJson writeKey) response.result).list?
      (Group.ofJson? readKey) = some response.result :=
    Json.list?_ofList fun group found => Group.ofJson?_toJson (back group found)
  simp [ofJson?, fields, Json.Fields.required?, groups]

/-- A written response that reports an error is read back. -/
theorem ErrorResponse.ofJson?_toJson (response : ErrorResponse)
    : ErrorResponse.ofJson? response.toJson = some response := by
  have fields : response.toJson.fields? ["status", "message"] = some _ :=
    Json.fields?_of_sublist (List.Sublist.refl _) (by decide)
  simp [ofJson?, fields, Json.Fields.required?, Json.Fields.withDefault?, List.lookup_cons]

-----------------------------------------------------------------------------------------
-- Parameters
-----------------------------------------------------------------------------------------

section

variable {κ : Type} {writeKey : κ → Json} {readKey : Json → Option κ}
  {readColor : Json → Option Color}

/-- Written parameters of a creation are read back if its key is. -/
theorem PostCreation.ofJson?_toJson {creation : PostCreation κ}
    (back : readKey (writeKey creation.key) = some creation.key)
    : PostCreation.ofJson? readKey Color.ofJson? (creation.toJson writeKey) = some creation := by
  have fields : (creation.toJson writeKey).fields? ["id", "board_id", "post_group_id", "content",
      "pos_x", "pos_y", "color", "height", "z_index", "post_order"] = some _ :=
    Json.fields?_of_sublist (List.Sublist.refl _) (by decide)
  simp [ofJson?, fields, Json.Fields.required?, List.lookup_cons, back, Color.ofJson?_toJson]

/-- The fields that a change of a post sets stand in order. -/
theorem PostEdit.names_toJson (writeKey : κ → Json) (edit : PostEdit κ)
    : ∃ members, edit.toJson writeKey = .obj members
      ∧ (members.map (·.1)).Sublist
        ["id", "board_id", "content", "color", "height", "post_group_id", "post_order"]
      ∧ members.lookup "id" = some (.ofUuid edit.id)
      ∧ members.lookup "board_id" = some (.ofUuid edit.board)
      ∧ members.lookup "content" = edit.content.map .str
      ∧ members.lookup "color" = edit.color.map Color.toJson
      ∧ members.lookup "height" = edit.height.map .ofInt32
      ∧ members.lookup "post_group_id" = edit.group.map .ofUuid
      ∧ members.lookup "post_order" = edit.key.map writeKey := by
  refine ⟨_, rfl, ?_, ?_⟩
  · have ordered := ((((List.Sublist.refl ["id", "board_id"]).append
      (Json.names_memberIfAny "content" .str edit.content)).append
      (Json.names_memberIfAny "color" Color.toJson edit.color)).append
      (Json.names_memberIfAny "height" .ofInt32 edit.height)).append
      (Json.names_memberIfAny "post_group_id" .ofUuid edit.group) |>.append
      (Json.names_memberIfAny "post_order" writeKey edit.key)
    simpa using ordered
  · simp [Json.lookup_memberIfAny, List.lookup_append, List.lookup_cons]

/-- A written change of a post is read back if its key, if any, is. -/
theorem PostEdit.ofJson?_toJson {edit : PostEdit κ}
    (back : ∀ key ∈ edit.key, readKey (writeKey key) = some key)
    (given : ∀ key ∈ edit.key, (writeKey key).isNull = false)
    : PostEdit.ofJson? readKey Color.ofJson? (edit.toJson writeKey) = some edit := by
  obtain ⟨members, written, ordered, id, board, content, color, height, group, key⟩ :=
    edit.names_toJson writeKey
  have fields := Json.fields?_of_sublist ordered (by decide)
  have color := Json.Fields.optional?_memberIfAny color
    (fun inside _ => (Color.ofJson?_toJson inside).1) (fun _ _ => rfl)
  have content := @Json.Fields.optional?_memberIfAny _ members _ _ Json.str? _ content
    (fun inside _ => Json.str?_str inside) (fun _ _ => rfl)
  have height := @Json.Fields.optional?_memberIfAny _ members _ _ Json.int32? _ height
    (fun inside _ => Json.int32?_ofInt32 inside) (fun _ _ => rfl)
  have group := @Json.Fields.optional?_memberIfAny _ members _ _ Json.uuid? _ group
    (fun inside _ => Json.uuid?_ofUuid inside) (fun _ _ => rfl)
  have key := Json.Fields.optional?_memberIfAny key back given
  simp [ofJson?, written, fields, Json.Fields.required?, id, board, content, color, height, group,
    key]

end

/-- Written parameters of a detachment are read back. -/
theorem PostDetachment.ofJson?_toJson (detachment : PostDetachment)
    : PostDetachment.ofJson? detachment.toJson = some detachment := by
  have fields : detachment.toJson.fields? ["post_id", "board_id", "post_group_id", "pos_x",
      "pos_y", "z_index"] = some _ :=
    Json.fields?_of_sublist (List.Sublist.refl _) (by decide)
  simp [ofJson?, fields, Json.Fields.required?, List.lookup_cons]

/-- Written parameters of a change of a group are read back at every nesting level, since the fields
of the change hold no others.
-/
theorem GroupChange.ofJson?_toJson (level : Nat) (change : GroupChange)
    : GroupChange.ofJson? level change.toJson = some change := by
  have ordered
      : ((("board_id", Json.ofUuid change.board) :: change.patch.members).map (·.1)).Sublist
        (["board_id"] ++ GroupPatch.fieldNames) :=
    change.patch.names_members.cons_cons "board_id"
  have fields : change.toJson.flatFields? level ["board_id"] GroupPatch.fieldNames
      = some (("board_id", .ofUuid change.board) :: change.patch.members) := by
    refine Json.flatFields?_of_known (fun entry found _ => ?_)
      (fun _ found => ordered.subset (List.mem_map_of_mem found)) (ordered.nodup (by decide))
    rcases List.mem_cons.mp found with rfl | inPatch
    · rfl
    · exact change.patch.isKeepable_members _ entry inPatch
  have patch := @GroupPatch.ofFields?_members change.patch [("board_id", .ofUuid change.board)]
    (by simp [GroupPatch.fieldNames])
  rw [List.singleton_append] at patch
  simp [ofJson?, fields, Json.Fields.required?, patch]

-----------------------------------------------------------------------------------------
-- Commands
-----------------------------------------------------------------------------------------

namespace Command

variable {κ : Type} {writeKey : κ → Json} {readKey : Json → Option κ}

/-- The order key that a command sends, if it sends one. -/
def key? : Command κ → Option κ
  | .createPost creation => some creation.key
  | .updatePost edit => edit.key
  | _ => none

/-- Written parameters are read back by the kind of their command, if its key is. -/
theorem ofParams?_paramsToJson {command : Command κ}
    (back : ∀ key ∈ command.key?, readKey (writeKey key) = some key)
    (given : ∀ key ∈ command.key?, (writeKey key).isNull = false)
    : ofParams? readKey Color.ofJson? command.kind (command.paramsToJson writeKey)
      = some command := by
  cases command with
  | createPost creation =>
      simp [ofParams?, kind, paramsToJson, PostCreation.ofJson?_toJson (back _ rfl)]
  | updatePost edit => simp [ofParams?, kind, paramsToJson, PostEdit.ofJson?_toJson back given]
  | detachPost detachment =>
      simp [ofParams?, kind, paramsToJson, PostDetachment.ofJson?_toJson]
  | updateGroup change => simp [ofParams?, kind, paramsToJson, GroupChange.ofJson?_toJson]
  | authenticate token =>
      simp [ofParams?, kind, paramsToJson, Json.objectFields?, Json.Fields.required?]
  | _ =>
      simp [ofParams?, kind, paramsToJson, Json.objectFields?, Json.Fields.required?, List.lookup_cons]

/-- A written command is read back from a frame that holds other members after its own. -/
theorem ofJson?_members {command : Command κ}
    (back : ∀ key ∈ command.key?, readKey (writeKey key) = some key)
    (given : ∀ key ∈ command.key?, (writeKey key).isNull = false)
    {others : List (String × Json)} (other : ∀ member ∈ others, member.1 ∉ ["event", "params"])
    : ofJson? readKey (.obj (command.members writeKey ++ others)) = some command := by
  have unknown : others.filter (fun member => ["event", "params"].contains member.1) = [] := by
    refine List.filter_eq_nil_iff.mpr fun member found known => ?_
    exact other member found (List.contains_iff_mem.mp known)
  have fields : (Json.obj (command.members writeKey ++ others)).fields? ["event", "params"]
      = some (command.members writeKey) := by
    simp only [Json.fields?, Json.objectFields?, List.filter_append, unknown, List.append_nil]
    rfl
  have inOrder : paramsComeFirst (.obj (command.members writeKey ++ others)) = false := rfl
  have name : kindOfJson? false (.str command.kind.name) = some command.kind := by
    simp [kindOfJson?, Json.choice?, Json.choiceWith?]
  have event : Json.Fields.required? (command.members writeKey) "event" (kindOfJson? false)
      = some command.kind := name
  have params : Json.Fields.required? (command.members writeKey) "params" some
      = some (command.paramsToJson writeKey) := rfl
  simp [ofJson?, fields, inOrder, Json.isArray, event, params, ofParams?_paramsToJson back given]

end Command

end SharedBoard
