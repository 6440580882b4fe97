import FormSieve.Proofs.Json.Records
import FormSieve.Server.Config

/-!
# Configurations as documents

Every configuration is read back from what is written for it.
-/

namespace FormSieve

open Json

namespace Config

/-- The names with a meaning. -/
def fieldNames : List String :=
  ["host", "port", "cors_origins", "upstream_base_url", "accept_invalid_certs", "default_limit"]

theorem service_fits (c : Config) : c.service.toNat < 2 ^ 64 :=
  Nat.lt_trans c.service.toNat_lt (by decide)

/-- The members of a configuration as they are written. -/
def treeMembers (c : Config) : Members :=
  [("host", .text c.host), ("port", .natural c.service.toNat c.service_fits),
    ("cors_origins", .array (c.origins.map .text)),
    ("upstream_base_url", (c.providerBase.map Value.text).getD .null),
    ("accept_invalid_certs", .boolean c.trusting),
    ("default_limit", .natural c.defaultLimit.toNat c.defaultLimit.toNat_lt)]

/-- The configuration as a value. -/
def tree (c : Config) : Value := .object c.treeMembers

theorem print_eq_print_tree (c : Config) : c.print = c.tree.print := by
  obtain ⟨host, service, origins, providerBase, trusting, defaultLimit⟩ := c
  have texts : Value.print ∘ Value.text = printText := rfl
  cases providerBase <;> cases trusting <;>
    simp [print, tree, treeMembers, Value.print, printMembers, printAll_eq_map,
      Value.print_natural, texts]

/-! ## What the decoder does -/

/-- How a configuration is read from its fields. -/
def fields : Decoder.Fields Draft Config :=
  { record := "HttpServerConfig", empty := {}, member := member,
    finish := fun draft => .ok (finish draft), inOrder := some inOrder }

/-- What becomes of the fields read so far when one more member comes. -/
def step (draft : Draft) (m : String × Value) : Option Draft :=
  (takeField "host" Value.asText draft.host m).bind fun host =>
    (takeField "port" Value.asUnsigned16 draft.service m).bind fun service =>
      (takeField "cors_origins" (Value.asList Value.asText) draft.origins m).bind fun origins =>
        (takeField "upstream_base_url" (Value.asOptional Value.asText) draft.providerBase m).bind
          fun providerBase =>
            (takeField "accept_invalid_certs" Value.asBoolean draft.trusting m).bind
              fun trusting =>
                (takeField "default_limit" Value.asUnsigned64 draft.defaultLimit m).map
                  fun defaultLimit =>
                    ⟨host, service, origins, providerBase, trusting, defaultLimit⟩

/-- A member is taken by the field of its name and leaves the others as they are. -/
theorem step_eq_ite (draft : Draft) (name : String) (v : Value) :
    step draft (name, v) =
      if name = "host" then
        (takeField name Value.asText draft.host (name, v)).map fun o => { draft with host := o }
      else if name = "port" then
        (takeField name Value.asUnsigned16 draft.service (name, v)).map fun o =>
          { draft with service := o }
      else if name = "cors_origins" then
        (takeField name (Value.asList Value.asText) draft.origins (name, v)).map fun o =>
          { draft with origins := o }
      else if name = "upstream_base_url" then
        (takeField name (Value.asOptional Value.asText) draft.providerBase (name, v)).map fun o =>
          { draft with providerBase := o }
      else if name = "accept_invalid_certs" then
        (takeField name Value.asBoolean draft.trusting (name, v)).map fun o =>
          { draft with trusting := o }
      else if name = "default_limit" then
        (takeField name Value.asUnsigned64 draft.defaultLimit (name, v)).map fun o =>
          { draft with defaultLimit := o }
      else some draft := by
  split_ifs with host service origins providerBase trusting defaultLimit
  all_goals simp [step, takeField_other, bind_some_eq_map, *]

theorem member_follows (room : Nat) (draft : Draft) (name : String) (bs : Bytes)
    (known : name ∈ fieldNames) :
    (member room draft name bs).Follows (memberValue (valueAsWritten room) bs)
      fun v => step draft (name, v) := by
  simp only [member, step_eq_ite]
  split_ifs with host service origins providerBase trusting defaultLimit
  · exact field_follows .text (fun o => { draft with host := o }) (fun _ => rfl) room bs
  · exact field_follows .unsigned16 (fun o => { draft with service := o }) (fun _ => rfl) room bs
  · exact field_follows (.list .text) (fun o => { draft with origins := o }) (fun _ => rfl) room bs
  · exact field_follows (.optional .text) (fun o => { draft with providerBase := o }) (fun _ => rfl)
      room bs
  · exact field_follows .boolean (fun o => { draft with trusting := o }) (fun _ => rfl) room bs
  · exact field_follows .unsigned64 (fun o => { draft with defaultLimit := o }) (fun _ => rfl) room
      bs
  · simp [fieldNames, host, service, origins, providerBase, trusting, defaultLimit] at known

/-! ## Reading back what is written -/

theorem tree_fits (c : Config) : c.tree.Fits maxDepth := by
  refine .object fun m hm => ?_
  simp only [treeMembers, List.mem_cons, List.not_mem_nil, or_false] at hm
  rcases hm with rfl | rfl | rfl | rfl | rfl | rfl
  · exact .text _ _
  · exact .number _ _
  · refine .array fun v hv => ?_
    obtain ⟨origin, -, rfl⟩ := List.mem_map.1 hv
    exact .text _ _
  · cases shown : c.providerBase with
    | none => exact .null _
    | some base => exact .text _ _
  · exact .boolean _ _
  · exact .number _ _

theorem ofMembers_tree (c : Config) : fields.ofMembers step c.treeMembers = some c := by
  have origins : (Value.array (c.origins.map .text)).asList Value.asText = some c.origins :=
    Value.mapM_eq_some_iff.2 (List.forall₂_map_left_iff.2 (List.forall₂_same.2 fun _ _ => rfl))
  have base : Value.asOptional Value.asText ((c.providerBase.map Value.text).getD .null) =
      some c.providerBase := by
    cases c.providerBase <;> rfl
  have host : (Value.text c.host).asText = some c.host := rfl
  have service := Value.asUnsigned16_natural c.service c.service_fits
  have trusting : (Value.boolean c.trusting).asBoolean = some c.trusting := rfl
  have defaultLimit := Value.asUnsigned64_natural c.defaultLimit
  simp [Decoder.Fields.ofMembers, fields, finish, treeMembers, step_eq_ite, takeField, host,
    service, origins, base, trusting, defaultLimit, Except.toOption]

end Config

end FormSieve
