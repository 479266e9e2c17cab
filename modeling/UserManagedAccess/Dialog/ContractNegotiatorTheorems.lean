/-
UserManagedAccess.Dialog.ContractNegotiatorTheorems — a contract negotiation
is a plain negotiation whose tokens go through a contract.

No stored contract is ever found, so a negotiation makes a new one each time,
and reads the permissions of its token from that. `contracted` is the plain
negotiation with a token factory that does this, and `run_negotiate` says that it
is the same, step by step, for what a request asks and every state. What a
contract does to permissions is an invariant of the loop over its pairs
(`Grouped`): the loop groups them by resource, and it fails for a resource with
the name of a property that every object has (`addScopes_error`).

* `switch_switch` — scopes are translated back and forth;
* `existingContract_eq_none` — no contract is found, whatever was stored;
* `regroups_createContract` — a contract grants what it was made for;
* `run_negotiate` — the simulation of the plain negotiation;
* `negotiate_exact` — the two negotiations compared.

Strategy, verifier and token factory are arbitrary.
-/
import Mathlib.Data.List.Induction
import UserManagedAccess.Dialog.BaseNegotiatorTheorems
import UserManagedAccess.Dialog.ContractNegotiator
import UserManagedAccess.Lib.Except

namespace UserManagedAccess.Dialog

open UserManagedAccess.Lib UserManagedAccess.Util UserManagedAccess.Views
open UserManagedAccess.Credentials UserManagedAccess.Ticketing UserManagedAccess.Tokens

/-! ## Scopes -/

namespace RequestProcessing

/-- The scope is in one of the two namespaces. -/
def Recognized (scope : String) : Prop :=
  cssNamespace.toList <+: scope.toList ∨ oacNamespace.toList <+: scope.toList

theorem recognized_of_switch {scope action : String}
    (h : switchODRLandCSSPermission scope = .ok action) : Recognized scope := by
  unfold switchODRLandCSSPermission at h
  by_cases hcss : cssNamespace.toList <+: scope.toList
  · exact .inl hcss
  · by_cases hoac : oacNamespace.toList <+: scope.toList
    · exact .inr hoac
    · rw [if_neg hcss, if_neg hoac] at h
      cases h

theorem switch_of_recognized {scope : String} (h : Recognized scope) :
    ∃ action, switchODRLandCSSPermission scope = .ok action := by
  unfold switchODRLandCSSPermission
  by_cases hcss : cssNamespace.toList <+: scope.toList
  · exact ⟨_, if_pos hcss⟩
  · exact ⟨_, (if_neg hcss).trans (if_pos (h.resolve_left hcss))⟩

theorem replaceStart_append (old new : String) (rest : List Char) :
    replaceStart (String.ofList (old.toList ++ rest)) old new =
      String.ofList (new.toList ++ rest) := by
  unfold replaceStart
  rw [String.toList_ofList, ← String.length_toList, List.drop_left]

theorem switch_css (rest : List Char) :
    switchODRLandCSSPermission (String.ofList (cssNamespace.toList ++ rest)) =
      .ok (String.ofList (oacNamespace.toList ++ rest)) := by
  unfold switchODRLandCSSPermission
  rw [if_pos (by simp), replaceStart_append]

theorem switch_oac (rest : List Char) :
    switchODRLandCSSPermission (String.ofList (oacNamespace.toList ++ rest)) =
      .ok (String.ofList (cssNamespace.toList ++ rest)) := by
  -- the namespaces begin with different letters
  have hnot : ¬ cssNamespace.toList <+: oacNamespace.toList ++ rest := by
    rintro ⟨more, hmore⟩
    have hhead := congrArg List.head? hmore
    cases hhead
  unfold switchODRLandCSSPermission
  rw [String.toList_ofList, if_neg hnot, if_pos (List.prefix_append _ _), replaceStart_append]

/-- What was translated is translated back. -/
theorem switch_switch {scope action : String} (h : switchODRLandCSSPermission scope = .ok action) :
    switchODRLandCSSPermission action = .ok scope := by
  rcases recognized_of_switch h with ⟨rest, hrest⟩ | ⟨rest, hrest⟩
  · have hscope : scope = String.ofList (cssNamespace.toList ++ rest) := by
      rw [hrest, String.ofList_toList]
    rw [hscope, switch_css] at h
    cases h
    rw [hscope, switch_oac]
  · have hscope : scope = String.ofList (oacNamespace.toList ++ rest) := by
      rw [hrest, String.ofList_toList]
    rw [hscope, switch_oac] at h
    cases h
    rw [hscope, switch_css]

end RequestProcessing

open RequestProcessing

/-! ## The search for a contract -/

namespace ContractManager

/-- Nothing is the same as a list of claims. -/
theorem matchContract_claims {permission : Permission} {claims storage : List Json}
    {contract : Option Json} (h : matchContract permission (.array claims) storage = .ok contract) :
    contract = none := by
  induction storage with
  | nil =>
    cases h
    rfl
  | cons first storage ih =>
    unfold matchContract at h
    cases hpermissions : first.field "permission" with
    | array permissions =>
      rw [hpermissions] at h
      cases permissions with
      | nil => cases h
      | cons entry permissions =>
        have hassignee : strictEquals (.array claims) (entry.field "assignee") = false := by
          cases entry.field "assignee" <;> rfl
        dsimp only at h
        rw [hassignee] at h
        split at h
        · exact ih h
        · exact ih h
    | _ =>
      rw [hpermissions] at h
      cases h

end ContractManager

theorem ContractNegotiator.existingContract_eq_none {τ : Type} (negotiator : ContractNegotiator τ)
    (ticket : Ticket) : negotiator.existingContract ticket = none := by
  unfold existingContract ContractManager.findContract
  cases ticket.provided.get WEBID with
  | none => rfl
  | some identifier =>
    cases ticket.permissions with
    | nil => rfl
    | cons permission permissions =>
      cases permissions with
      | cons other permissions => rfl
      | nil =>
        dsimp only
        cases hmatch : ContractManager.matchContract permission (.array identifier)
            negotiator.contractManager.storage with
        | error e => rfl
        | ok contract => exact ContractManager.matchContract_claims hmatch

/-! ## What a contract grants -/

namespace ContractManager

/-- The scopes that come with a resource. -/
def scopesOf (pairs : List (String × String)) (resourceId : String) : List String :=
  (pairs.filter fun pair => pair.2 = resourceId).map Prod.fst

theorem mem_scopesOf {pairs : List (String × String)} {resourceId scope : String} :
    scope ∈ scopesOf pairs resourceId ↔ (scope, resourceId) ∈ pairs := by
  simp [scopesOf]

theorem mem_permissionPairs {permissions : List Permission} {resourceId scope : String} :
    (scope, resourceId) ∈ permissionPairs permissions ↔ (resourceId, scope) ∈ pairs permissions := by
  unfold permissionPairs
  rw [mem_pairs, List.mem_flatMap]
  constructor
  · rintro ⟨permission, hpermission, hpair⟩
    obtain ⟨other, hscope, heq⟩ := List.mem_map.mp hpair
    cases heq
    exact ⟨permission, hpermission, rfl, hscope⟩
  · rintro ⟨permission, hpermission, rfl, hscope⟩
    exact ⟨permission, hpermission, List.mem_map.mpr ⟨scope, hscope, rfl⟩⟩

/-- One permission for each resource, with all of its scopes in their order. -/
structure Regroups (granted permissions : List Permission) : Prop where
  distinct : (permissions.map Permission.resourceId).Nodup
  scopes : ∀ permission ∈ permissions, permission.resourceScopes =
    scopesOf (permissionPairs granted) permission.resourceId
  nonempty : ∀ permission ∈ permissions, permission.resourceScopes ≠ []
  same : pairs permissions = pairs granted

end ContractManager

namespace ContractNegotiator

open ContractManager

/-- The map has the pairs seen so far. -/
structure Grouped (seen : List (String × String)) (permissionMap : Dict Permission) : Prop where
  nodup : permissionMap.keys.Nodup
  get : ∀ id, permissionMap.get id =
    if scopesOf seen id = [] then none else some ⟨id, scopesOf seen id⟩

theorem grouped_empty : Grouped [] Dict.empty := ⟨List.nodup_nil, fun _ => rfl⟩

theorem scopesOf_concat (seen : List (String × String)) (scope resourceId id : String) :
    scopesOf (seen ++ [(scope, resourceId)]) id =
      if id = resourceId then scopesOf seen id ++ [scope] else scopesOf seen id := by
  unfold scopesOf
  rw [List.filter_append, List.map_append]
  by_cases hid : id = resourceId
  · subst hid
    simp
  · have hne : ¬ resourceId = id := fun h => hid h.symm
    simp [hid, hne]

theorem grouped_addScope {seen : List (String × String)} {permissionMap : Dict Permission}
    (h : Grouped seen permissionMap) (scope : String) {resourceId : String}
    (hid : resourceId ∉ inheritedProperties) :
    ∃ permissionMap', addScope permissionMap resourceId (.ok scope) = .ok permissionMap' ∧
      Grouped (seen ++ [(scope, resourceId)]) permissionMap' := by
  have hadd : addScope permissionMap resourceId (.ok scope) =
      .ok (permissionMap.set resourceId ⟨resourceId, scopesOf seen resourceId ++ [scope]⟩) := by
    unfold addScope
    have hget := h.get resourceId
    by_cases hnone : scopesOf seen resourceId = []
    · rw [if_pos hnone] at hget
      rw [Dict.property_missing hget hid, hnone]
      rfl
    · rw [if_neg hnone] at hget
      rw [Dict.property_of_get hget]
      rfl
  refine ⟨_, hadd, Dict.nodup_keys_set h.nodup _ _, fun id => ?_⟩
  rw [Dict.get_set, scopesOf_concat, h.get]
  by_cases hid : id = resourceId
  · subst hid
    simp
  · simp [hid]

/-- The loop over the pairs of a contract. -/
def addScopes (pairs : List (String × String)) (permissionMap : Dict Permission) :
    Except HttpError (Dict Permission) :=
  pairs.foldlM (fun permissionMap pair => addScope permissionMap pair.2 (.ok pair.1)) permissionMap

theorem grouped_addScopes {seen pairs : List (String × String)} {permissionMap : Dict Permission}
    (h : Grouped seen permissionMap) (hpairs : ∀ pair ∈ pairs, pair.2 ∉ inheritedProperties) :
    ∃ permissionMap', addScopes pairs permissionMap = .ok permissionMap' ∧
      Grouped (seen ++ pairs) permissionMap' := by
  induction pairs generalizing seen permissionMap with
  | nil => exact ⟨permissionMap, rfl, by rwa [List.append_nil]⟩
  | cons pair pairs ih =>
    obtain ⟨first, hfirst, hgrouped⟩ :=
      grouped_addScope h pair.1 (hpairs pair List.mem_cons_self)
    obtain ⟨last, hlast, hgrouped⟩ :=
      ih hgrouped fun other hother => hpairs other (List.mem_cons_of_mem _ hother)
    refine ⟨last, ?_, by rwa [List.append_assoc] at hgrouped⟩
    rw [addScopes, List.foldlM_cons, hfirst]
    exact hlast

/-- Nothing is added under a name that every object inherits. -/
theorem addScopes_error {pairs : List (String × String)} {permissionMap : Dict Permission}
    (h : ∀ id ∈ inheritedProperties, permissionMap.get id = none)
    (hpairs : ∃ pair ∈ pairs, pair.2 ∈ inheritedProperties) :
    ∃ e, addScopes pairs permissionMap = .error e := by
  induction pairs generalizing permissionMap with
  | nil =>
    obtain ⟨pair, hpair, -⟩ := hpairs
    cases hpair
  | cons pair pairs ih =>
    rw [addScopes, List.foldlM_cons]
    by_cases hid : pair.2 ∈ inheritedProperties
    · unfold addScope
      rw [Dict.property_inherited (h _ hid) hid]
      exact ⟨_, rfl⟩
    · obtain ⟨added, hadded⟩ : ∃ permission, addScope permissionMap pair.2 (.ok pair.1) =
          .ok (permissionMap.set pair.2 permission) := by
        unfold addScope
        cases hget : permissionMap.get pair.2 with
        | none =>
          rw [Dict.property_missing hget hid]
          exact ⟨_, rfl⟩
        | some known =>
          rw [Dict.property_of_get hget]
          exact ⟨_, rfl⟩
      rw [hadded]
      refine ih (fun id hinherited => ?_) ?_
      · rw [Dict.get_set_ne _ _ fun heq : id = pair.2 => hid (heq ▸ hinherited)]
        exact h id hinherited
      · obtain ⟨other, hother, hinherited⟩ := hpairs
        rcases List.mem_cons.mp hother with rfl | hother
        · exact absurd hinherited hid
        · exact ⟨other, hother, hinherited⟩

theorem regroups_of_grouped {granted : List Permission} {permissionMap : Dict Permission}
    (h : Grouped (permissionPairs granted) permissionMap) :
    Regroups granted (permissionMap.map Prod.snd) := by
  have hentry : ∀ entry ∈ permissionMap,
      scopesOf (permissionPairs granted) entry.1 ≠ [] ∧
        entry.2 = ⟨entry.1, scopesOf (permissionPairs granted) entry.1⟩ := by
    intro entry hentry
    have hget := (h.get entry.1).symm.trans (Dict.get_of_mem h.nodup hentry)
    by_cases hnone : scopesOf (permissionPairs granted) entry.1 = []
    · rw [if_pos hnone] at hget
      cases hget
    · rw [if_neg hnone] at hget
      exact ⟨hnone, (Option.some.inj hget).symm⟩
  have hmem : ∀ permission ∈ permissionMap.map Prod.snd, permission.resourceScopes =
      scopesOf (permissionPairs granted) permission.resourceId ∧ permission.resourceScopes ≠ [] := by
    intro permission hpermission
    obtain ⟨entry, hmem, rfl⟩ := List.mem_map.mp hpermission
    obtain ⟨hsome, hpermission⟩ := hentry entry hmem
    rw [hpermission]
    exact ⟨rfl, hsome⟩
  refine ⟨?_, fun permission hpermission => (hmem permission hpermission).1,
    fun permission hpermission => (hmem permission hpermission).2, ?_⟩
  · have hkeys : (permissionMap.map Prod.snd).map Permission.resourceId = permissionMap.keys := by
      rw [List.map_map]
      refine List.map_congr_left fun entry hmem => ?_
      rw [Function.comp_apply, (hentry entry hmem).2]
    rw [hkeys]
    exact h.nodup
  · ext ⟨id, scope⟩
    have hgranted : (id, scope) ∈ pairs granted ↔ scope ∈ scopesOf (permissionPairs granted) id :=
      mem_permissionPairs.symm.trans mem_scopesOf.symm
    rw [hgranted]
    constructor
    · rintro ⟨permission, hpermission, rfl, hscope⟩
      rwa [← (hmem permission hpermission).1]
    · intro hscope
      have hsome : scopesOf (permissionPairs granted) id ≠ [] := List.ne_nil_of_mem hscope
      have hget := (h.get id).trans (if_neg hsome)
      exact ⟨_, List.mem_map.mpr ⟨_, Dict.mem_of_get hget, rfl⟩, rfl, hscope⟩

/-- Reading the permissions of a contract translates them back. -/
theorem foldlM_addPermission {pairs : List (String × String)} {permissions : List Json}
    (h : (pairs.mapM fun pair => do
      let action ← switchODRLandCSSPermission pair.1
      return contractPermission action pair.2) = .ok permissions) (permissionMap : Dict Permission) :
    permissions.foldlM addPermission permissionMap = addScopes pairs permissionMap := by
  induction pairs generalizing permissions permissionMap with
  | nil =>
    cases h
    rfl
  | cons pair pairs ih =>
    rw [List.mapM_cons] at h
    obtain ⟨first, hfirst, h⟩ := Except.bind_eq_ok.mp h
    obtain ⟨action, haction, hpermission⟩ := Except.bind_eq_ok.mp hfirst
    obtain ⟨rest, hrest, h⟩ := Except.bind_eq_ok.mp h
    cases h
    cases hpermission
    have hadd : addPermission permissionMap (contractPermission action pair.2) =
        addScope permissionMap pair.2 (.ok pair.1) :=
      congrArg (addScope permissionMap pair.2) (switch_switch haction)
    rw [addScopes, List.foldlM_cons, List.foldlM_cons, hadd]
    exact congrArg _ (funext fun added => ih hrest added)

theorem contractPermissions_createContract {randomUUID : String} {granted : List Permission}
    {contract : Json} (h : createContract randomUUID granted = .ok contract) :
    contractPermissions contract =
      (addScopes (permissionPairs granted) Dict.empty).map (List.map Prod.snd) := by
  obtain ⟨values, hvalues, h⟩ := Except.bind_eq_ok.mp h
  cases h
  have hfold := foldlM_addPermission hvalues Dict.empty
  unfold contractPermissions
  show (values.foldlM addPermission Dict.empty >>= _) = _
  rw [hfold]
  cases addScopes (permissionPairs granted) Dict.empty <;> rfl

/-- Every resource of the pairs has a place of its own. -/
def Placed (permissions : List Permission) : Prop :=
  ∀ id scope, (id, scope) ∈ pairs permissions → id ∉ inheritedProperties

/-- What a contract is made for is what it grants. -/
theorem regroups_createContract {randomUUID : String} {granted : List Permission} {contract : Json}
    (h : createContract randomUUID granted = .ok contract) (hplaced : Placed granted) :
    ∃ permissions, contractPermissions contract = .ok permissions ∧
      Regroups granted permissions := by
  have hplain : ∀ pair ∈ permissionPairs granted, pair.2 ∉ inheritedProperties :=
    fun pair hpair => hplaced pair.2 pair.1 (mem_permissionPairs.mp hpair)
  obtain ⟨permissionMap, hmap, hgrouped⟩ := grouped_addScopes grouped_empty hplain
  rw [contractPermissions_createContract h, hmap]
  exact ⟨_, rfl, regroups_of_grouped hgrouped⟩

theorem contractPermissions_error {randomUUID : String} {granted : List Permission}
    {contract : Json} (h : createContract randomUUID granted = .ok contract)
    (hplaced : ¬ Placed granted) : ∃ e, contractPermissions contract = .error e := by
  unfold Placed at hplaced
  push Not at hplaced
  obtain ⟨id, scope, hpair, hinherited⟩ := hplaced
  have hempty : ∀ id ∈ inheritedProperties, (Dict.empty : Dict Permission).get id = none :=
    fun _ _ => rfl
  obtain ⟨e, he⟩ := addScopes_error hempty ⟨(scope, id), mem_permissionPairs.mpr hpair, hinherited⟩
  rw [contractPermissions_createContract h, he]
  exact ⟨e, rfl⟩

/-- A contract passes its own check. -/
theorem assertion_createContract {randomUUID : String} {granted : List Permission}
    {contract : Json} (h : createContract randomUUID granted = .ok contract) :
    ODRLContract contract = .ok () := by
  obtain ⟨values, hvalues, h⟩ := Except.bind_eq_ok.mp h
  cases h
  have hpermissions : ReType.array ODRLPermission (.array values) = .ok () := by
    refine ReType.forEach_ok.mpr fun value hvalue => ?_
    obtain ⟨pair, -, hpair⟩ := mem_of_mapM_ok hvalues value hvalue
    obtain ⟨action, -, hpermission⟩ := Except.bind_eq_ok.mp hpair
    cases hpermission
    rfl
  -- the other fields do not depend on what was asked for
  have hfields : ODRLContract (contractOf randomUUID values) =
      ReType.fields [("permission", ReType.array ODRLPermission)]
        (.object [("permission", .array values)]) := rfl
  have hvalue : (Json.object [("permission", .array values)]).field "permission" =
      .array values := rfl
  rw [hfields]
  simp only [ReType.fields, hvalue, hpermissions]

/-! ## The simulation -/

section Simulation

variable {τ : Type} (negotiator : ContractNegotiator τ) (randomUUID : String)

/-- Tokens go through a contract. -/
def contractFactory : Serialize τ := fun token => do
  let contract ← createContract randomUUID token.permissions
  let permissions ← contractPermissions contract
  negotiator.tokenFactory { permissions, contract := some contract, sub := token.sub }

/-- The plain negotiation with that factory. -/
def contracted : BaseNegotiator τ where
  verifier := negotiator.verifier
  ticketingStrategy := negotiator.ticketingStrategy
  tokenFactory := negotiator.contractFactory randomUUID
  refreshTokenIssuer := none

variable {negotiator randomUUID}

theorem processCredentials_contracted (claims : List ClaimToken) (ticket : Ticket) :
    (negotiator.contracted randomUUID).processCredentials claims ticket =
      negotiator.base.processCredentials claims ticket := by
  induction claims generalizing ticket with
  | nil => rfl
  | cons claim claims ih =>
    unfold BaseNegotiator.processCredentials
    simp only [ih]
    rfl

/-- An answer without what a contract negotiation leaves out. -/
def plain (output : DialogOutput) : DialogOutput :=
  { accessToken := output.accessToken, tokenType := output.tokenType }

def plainRun (result : Except HttpError DialogOutput × NegotiatorState τ) :
    Except HttpError DialogOutput × NegotiatorState τ :=
  (result.1.map plain, result.2)

section Token

variable {ticket : Ticket} {granted permissions : List Permission} {contract : Json}
  {s : NegotiatorState τ} {result : Except HttpError SerializedToken} {tokens : τ}

def contractToken (ticket : Ticket) (permissions : List Permission) (contract : Json) :
    AccessToken :=
  { permissions, contract := some contract, sub := BaseNegotiator.tokenSub ticket.provided }

theorem run_toResponse (hpermissions : contractPermissions contract = .ok permissions)
    (htokens : (negotiator.tokenFactory (contractToken ticket permissions contract)).run s.tokens =
      (result, tokens)) :
    (negotiator.toResponse contract ticket).run s =
      (result.map fun serialized =>
        { accessToken := serialized.token, tokenType := serialized.tokenType },
        s.setTokens tokens) := by
  have hrun := BaseNegotiator.run_onTokens (negotiator.tokenFactory (contractToken ticket permissions contract)) s
  rw [htokens] at hrun
  unfold toResponse
  rw [Async.run_bind, Async.run_lift, hpermissions]
  dsimp only
  cases result with
  | error e => exact Async.run_bind_of_error hrun _
  | ok serialized => exact Async.run_bind_of_ok hrun _

theorem run_toResponse_error {e : HttpError} (hpermissions : contractPermissions contract = .error e) :
    (negotiator.toResponse contract ticket).run s = (.error e, s) := by
  unfold toResponse
  rw [Async.run_bind, Async.run_lift, hpermissions]

theorem run_grant_contracted (hcontract : createContract randomUUID granted = .ok contract)
    (hpermissions : contractPermissions contract = .ok permissions)
    (htokens : (negotiator.tokenFactory (contractToken ticket permissions contract)).run s.tokens =
      (result, tokens)) :
    plainRun (((negotiator.contracted randomUUID).grant ticket granted).run s) =
      (result.map fun serialized =>
        { accessToken := serialized.token, tokenType := serialized.tokenType },
        s.setTokens tokens) := by
  have hfactory : (negotiator.contractFactory randomUUID
      (BaseNegotiator.mintedToken ticket granted)).run s.tokens = (result, tokens) := by
    unfold contractFactory
    rw [Async.run_bind, Async.run_lift]
    simp only [BaseNegotiator.mintedToken, hcontract, Async.run_bind, Async.run_lift, hpermissions]
    exact htokens
  have hrun := BaseNegotiator.run_onTokens (negotiator.contractFactory randomUUID
    (BaseNegotiator.mintedToken ticket granted)) s
  rw [hfactory] at hrun
  cases result with
  | error e =>
    exact congrArg plainRun (Async.run_bind_of_error hrun _)
  | ok serialized =>
    exact congrArg plainRun (Async.run_bind_of_ok hrun _)

/-- Where no contract can be made, or none of its permissions read, the plain
negotiation fails just so. -/
theorem run_grant_error {e : HttpError}
    (hterms : createContract randomUUID granted >>= contractPermissions = .error e) :
    ((negotiator.contracted randomUUID).grant ticket granted).run s = (.error e, s) := by
  have hfactory : (negotiator.contractFactory randomUUID
      (BaseNegotiator.mintedToken ticket granted)).run s.tokens = (.error e, s.tokens) := by
    unfold contractFactory
    rw [Async.run_bind, Async.run_lift]
    cases hcontract : createContract randomUUID granted with
    | error e' =>
      rw [hcontract] at hterms
      cases hterms
      simp only [BaseNegotiator.mintedToken, hcontract]
    | ok contract =>
      rw [hcontract] at hterms
      have hpermissions : contractPermissions contract = .error e := hterms
      simp only [BaseNegotiator.mintedToken, hcontract, Async.run_bind, Async.run_lift, hpermissions]
  have hrun := BaseNegotiator.run_onTokens (negotiator.contractFactory randomUUID
    (BaseNegotiator.mintedToken ticket granted)) s
  rw [hfactory] at hrun
  exact Async.run_bind_of_error hrun _

end Token

/-- What follows the reading of the request in a plain negotiation
(`negotiate_eq_dialog`). -/
def dialog (plainNegotiator : BaseNegotiator τ) (ticketId : String) (input : DialogInput) :
    Async (NegotiatorState τ) HttpError DialogOutput := do
  let ticket ← plainNegotiator.getTicket input
  let updatedTicket ← plainNegotiator.processCredentials input.claimTokens ticket
  let resolved ← plainNegotiator.ticketingStrategy.resolveTicket updatedTicket
  Async.yield
  match resolved with
  | .success granted => plainNegotiator.grant updatedTicket granted
  | .failure requirements =>
    BaseNegotiator.denyRequest ticketId { ticket with provided := updatedTicket.provided }
      requirements

theorem negotiate_eq_dialog (plainNegotiator : BaseNegotiator τ) (ticketId : String) {input : Json}
    (h : DialogInput.assertion input = .ok ()) :
    plainNegotiator.negotiate ticketId input =
      dialog plainNegotiator ticketId (DialogInput.ofJson input) := by
  unfold BaseNegotiator.negotiate
  rw [h]
  rfl

/-- A contract negotiation answers as the plain one does whose tokens go
through a contract. -/
theorem run_negotiate {ticketId : String} {input : Json} {dialogInput : DialogInput}
    (hassertion : DialogInput.assertion input = .ok ())
    (hread : readInput input = .ok dialogInput) (s : NegotiatorState τ) :
    (negotiator.negotiate ticketId randomUUID input).run s =
      plainRun ((dialog (negotiator.contracted randomUUID) ticketId dialogInput).run s) := by
  unfold negotiate
  rw [hassertion]
  dsimp only
  rw [Async.run_bind, Async.run_lift, hread]
  dsimp only
  unfold dialog
  have hgets : (negotiator.contracted randomUUID).getTicket dialogInput =
      negotiator.base.getTicket dialogInput := rfl
  rw [hgets, Async.run_bind, Async.run_bind]
  rcases (negotiator.base.getTicket dialogInput).run s with ⟨_ | ticket, s₁⟩
  · rfl
  dsimp only
  rw [processCredentials_contracted, Async.run_bind, Async.run_bind]
  rcases (negotiator.base.processCredentials dialogInput.claimTokens ticket).run s₁ with
    ⟨_ | updated, s₂⟩
  · rfl
  dsimp only
  unfold toContract
  rw [existingContract_eq_none]
  simp only [Async.run_bind, Async.run_lift, Async.run_yield]
  have hstrategy : (negotiator.contracted randomUUID).ticketingStrategy =
      negotiator.ticketingStrategy := rfl
  rw [hstrategy]
  cases negotiator.ticketingStrategy.resolveTicket updated with
  | error e => rfl
  | ok resolved =>
    cases resolved with
    | failure requirements =>
      simp only [Async.run_pure]
      unfold BaseNegotiator.denyRequest
      by_cases hnone : requirements.length = 0
      · rw [if_pos hnone]
        rfl
      · rw [if_neg hnone]
        rfl
    | success granted =>
      simp only [Async.run_bind, Async.run_lift]
      cases hcontract : createContract randomUUID granted with
      | error e =>
        refine (congrArg plainRun (run_grant_error ?_)).symm
        rw [hcontract]
        rfl
      | ok contract =>
        cases hpermissions : contractPermissions contract with
        | error e =>
          have hterms : createContract randomUUID granted >>= contractPermissions = .error e := by
            rw [hcontract]
            exact hpermissions
          rw [run_grant_error hterms]
          exact run_toResponse_error hpermissions
        | ok permissions =>
          exact (run_toResponse hpermissions rfl).trans
            (run_grant_contracted hcontract hpermissions rfl).symm

/-- There is a contract where all scopes can be translated. -/
theorem exists_createContract {granted : List Permission} :
    (∃ contract, createContract randomUUID granted = .ok contract) ↔
      ∀ id scope, (id, scope) ∈ pairs granted → Recognized scope := by
  have hvalues : (∃ contract, createContract randomUUID granted = .ok contract) ↔
      ∃ values, ((permissionPairs granted).mapM fun pair => do
        let action ← switchODRLandCSSPermission pair.1
        return contractPermission action pair.2) = Except.ok values := by
    constructor
    · intro ⟨contract, hcontract⟩
      obtain ⟨values, hvalues, -⟩ := Except.bind_eq_ok.mp hcontract
      exact ⟨values, hvalues⟩
    · intro ⟨values, hvalues⟩
      exact ⟨_, Except.bind_eq_ok.mpr ⟨values, hvalues, rfl⟩⟩
  rw [hvalues, exists_mapM_ok]
  constructor
  · intro hall id scope hpair
    obtain ⟨value, hvalue⟩ := hall (scope, id) (mem_permissionPairs.mpr hpair)
    obtain ⟨action, haction, -⟩ := Except.bind_eq_ok.mp hvalue
    exact recognized_of_switch haction
  · intro hall pair hpair
    obtain ⟨action, haction⟩ :=
      switch_of_recognized (hall pair.2 pair.1 (mem_permissionPairs.mp hpair))
    exact ⟨_, Except.bind_eq_ok.mpr ⟨action, haction, rfl⟩⟩

variable {ticketId : String} {dialogInput : DialogInput} {s : NegotiatorState τ}

theorem run_dialog_minted {plainNegotiator : BaseNegotiator τ} {ticket updated : Ticket}
    {granted : List Permission} {s₁ s₂ : NegotiatorState τ}
    (hget : (plainNegotiator.getTicket dialogInput).run s = (.ok ticket, s₁))
    (hprocess : (plainNegotiator.processCredentials dialogInput.claimTokens ticket).run s₁ =
      (.ok updated, s₂))
    (hresolved : plainNegotiator.ticketingStrategy.resolveTicket updated = .ok (.success granted)) :
    (dialog plainNegotiator ticketId dialogInput).run s =
      (plainNegotiator.grant updated granted).run s₂ := by
  unfold dialog
  rw [Async.run_bind_of_ok hget, Async.run_bind_of_ok hprocess, Async.run_bind, Async.run_lift,
    hresolved]
  rfl

theorem run_dialog_not_minted
    (hnot : ∀ ticket minted, ¬ negotiator.base.Mints s dialogInput ticket minted) :
    plainRun ((dialog (negotiator.contracted randomUUID) ticketId dialogInput).run s) =
      (dialog negotiator.base ticketId dialogInput).run s := by
  unfold dialog
  have hgets : (negotiator.contracted randomUUID).getTicket dialogInput =
      negotiator.base.getTicket dialogInput := rfl
  have hstrategy : (negotiator.contracted randomUUID).ticketingStrategy =
      negotiator.base.ticketingStrategy := rfl
  rw [hgets, Async.run_bind, Async.run_bind]
  rcases hget : (negotiator.base.getTicket dialogInput).run s with ⟨_ | ticket, s₁⟩
  · rfl
  dsimp only
  rw [processCredentials_contracted, Async.run_bind, Async.run_bind]
  rcases hprocess : (negotiator.base.processCredentials dialogInput.claimTokens ticket).run s₁ with
    ⟨_ | updated, s₂⟩
  · rfl
  dsimp only
  rw [hstrategy, Async.run_bind, Async.run_bind, Async.run_lift]
  cases hresolved : negotiator.base.ticketingStrategy.resolveTicket updated with
  | error e => rfl
  | ok resolved =>
    cases resolved with
    | success granted =>
      exact absurd ⟨updated, granted, s₁, s₂, hget, hprocess, hresolved, rfl⟩ (hnot ticket _)
    | failure requirements =>
      dsimp only
      rw [Async.run_bind, Async.run_yield]
      unfold BaseNegotiator.denyRequest
      by_cases hnone : requirements.length = 0
      · rw [if_pos hnone]
        rfl
      · rw [if_neg hnone]
        rfl

/-- Every pair can be written into a contract and read from it again: its scope
can be translated, and no object inherits the name of its resource. -/
def Contractable (permissions : List Permission) : Prop :=
  ∀ id scope, (id, scope) ∈ pairs permissions → Recognized scope ∧ id ∉ inheritedProperties

theorem exists_terms_iff {granted : List Permission} :
    (∃ permissions, createContract randomUUID granted >>= contractPermissions = .ok permissions) ↔
      Contractable granted := by
  constructor
  · rintro ⟨permissions, hterms⟩ id scope hpair
    obtain ⟨contract, hcontract, hpermissions⟩ := Except.bind_eq_ok.mp hterms
    refine ⟨exists_createContract.mp ⟨contract, hcontract⟩ id scope hpair, fun hinherited => ?_⟩
    obtain ⟨e, he⟩ := contractPermissions_error hcontract fun hplaced =>
      hplaced id scope hpair hinherited
    cases hpermissions.symm.trans he
  · intro hall
    obtain ⟨contract, hcontract⟩ : ∃ contract, createContract randomUUID granted = .ok contract :=
      exists_createContract.mpr fun id scope hpair => (hall id scope hpair).1
    obtain ⟨permissions, hpermissions, -⟩ :=
      regroups_createContract hcontract fun id scope hpair => (hall id scope hpair).2
    exact ⟨permissions, Except.bind_eq_ok.mpr ⟨contract, hcontract, hpermissions⟩⟩

/-- A request that was read is answered as by a plain negotiation where that
mints nothing. Where it would mint a token, the tickets are the same
afterwards; when every granted pair can go through a contract, what is minted
instead has the same pairs, one permission for each resource and a contract that
passes its check, and the factory decides the answer; otherwise there is no
token. The plain negotiation is that of any body with the same ticket, claims
and permissions. -/
theorem negotiate_exact (negotiator : ContractNegotiator τ) (ticketId randomUUID : String)
    (input : Json) (dialogInput : DialogInput)
    (hassertion : DialogInput.assertion input = .ok ())
    (hread : readInput input = .ok dialogInput) (s : NegotiatorState τ) :
    ((∀ ticket minted, ¬ negotiator.base.Mints s dialogInput ticket minted) →
      (negotiator.negotiate ticketId randomUUID input).run s =
        (dialog negotiator.base ticketId dialogInput).run s) ∧
    (∀ ticket minted, negotiator.base.Mints s dialogInput ticket minted →
      ((negotiator.negotiate ticketId randomUUID input).run s).2.ticketStore =
          ((dialog negotiator.base ticketId dialogInput).run s).2.ticketStore ∧
        (Contractable minted.permissions →
          ∃ contract permissions tokens, ODRLContract contract = .ok () ∧
            contractPermissions contract = .ok permissions ∧
            Regroups minted.permissions permissions ∧
            ((negotiator.negotiate ticketId randomUUID input).run s).1 =
              ((negotiator.tokenFactory
                { permissions, contract := some contract, sub := minted.sub }).run
                  tokens).1.map fun serialized =>
                    { accessToken := serialized.token, tokenType := serialized.tokenType }) ∧
        (¬ Contractable minted.permissions →
          ∃ e, ((negotiator.negotiate ticketId randomUUID input).run s).1 = .error e)) ∧
    ∀ plainInput, DialogInput.assertion plainInput = .ok () →
      DialogInput.ofJson plainInput = dialogInput →
        dialog negotiator.base ticketId dialogInput =
          negotiator.base.negotiate ticketId plainInput := by
  rw [run_negotiate hassertion hread s]
  refine ⟨run_dialog_not_minted, ?_, fun plainInput haccepted hsame =>
    hsame ▸ (negotiate_eq_dialog negotiator.base ticketId haccepted).symm⟩
  rintro ticket minted ⟨updated, granted, s₁, s₂, hget, hprocess, hresolved, rfl⟩
  have hcontracted : (dialog (negotiator.contracted randomUUID) ticketId dialogInput).run s =
      ((negotiator.contracted randomUUID).grant updated granted).run s₂ :=
    run_dialog_minted hget ((congrArg (fun p => p.run s₁) (processCredentials_contracted _ _)).trans
      hprocess) hresolved
  have hplain : (dialog negotiator.base ticketId dialogInput).run s =
      (negotiator.base.grant updated granted).run s₂ := run_dialog_minted hget hprocess hresolved
  have htickets : ((negotiator.base.grant updated granted).run s₂).2.ticketStore =
      s₂.ticketStore := BaseNegotiator.frame_grant negotiator.base updated granted s₂
  rw [hcontracted, hplain, htickets]
  refine ⟨BaseNegotiator.frame_grant (negotiator.contracted randomUUID) updated granted s₂, ?_, ?_⟩
  · intro hall
    obtain ⟨contract, hcontract⟩ : ∃ contract, createContract randomUUID granted = .ok contract :=
      exists_createContract.mpr fun id scope hpair => (hall id scope hpair).1
    obtain ⟨permissions, hpermissions, hregroups⟩ :=
      regroups_createContract hcontract fun id scope hpair => (hall id scope hpair).2
    refine ⟨contract, permissions, s₂.tokens, assertion_createContract hcontract, hpermissions,
      hregroups, ?_⟩
    rw [run_grant_contracted hcontract hpermissions rfl]
    rfl
  · intro hnot
    cases hterms : createContract randomUUID granted >>= contractPermissions with
    | error e =>
      rw [run_grant_error hterms]
      exact ⟨e, rfl⟩
    | ok permissions => exact absurd (exists_terms_iff.mp ⟨permissions, hterms⟩) hnot

end Simulation

/-- Grants reading a photo, and spells its tokens. -/
def agreeing : ContractNegotiator Unit where
  verifier _ := throw (.badRequest "no claims")
  ticketingStrategy := immediateAuthorizerStrategy
    (fun _ _ => .ok [⟨"http://example.org/photo", ["urn:example:css:modes:read"]⟩]) false
  tokenFactory token := pure (TokenCodec.spelled.serialize token)

def odrlRequest : Json :=
  .object [("permission", .array [.object [("action", .string "https://w3id.org/oac#read"),
    ("target", .object [("@id", .string "http://example.org/photo")]),
    ("assigner", .string "http://example.org/alice"),
    ("assignee", .string "http://example.org/bob")]])]

theorem photo_not_inherited : "http://example.org/photo" ∉ inheritedProperties := by decide

theorem negotiate_exact_photo :
    ∃ contract permissions, ODRLContract contract = .ok () ∧
      contractPermissions contract = .ok permissions ∧
      pairs permissions = pairs [⟨"http://example.org/photo", ["urn:example:css:modes:read"]⟩] := by
  obtain ⟨-, hminted, -⟩ := negotiate_exact agreeing "ticket" "agreement" odrlRequest
    { permissions := some [⟨"http://example.org/photo", ["urn:example:css:modes:read"]⟩] }
    rfl rfl ⟨KeyValueStorage.empty, ()⟩
  obtain ⟨-, hcontract, -⟩ := hminted
    ⟨none, [⟨"http://example.org/photo", ["urn:example:css:modes:read"]⟩], Dict.empty⟩
    ⟨[⟨"http://example.org/photo", ["urn:example:css:modes:read"]⟩], none, none⟩
    ⟨_, _, _, _, rfl, rfl, rfl, rfl⟩
  obtain ⟨contract, permissions, -, hassertion, hpermissions, hregroups, -⟩ :=
    hcontract (by
      rintro id scope ⟨permission, hpermission, rfl, hscope⟩
      cases List.mem_singleton.mp hpermission
      cases List.mem_singleton.mp hscope
      exact ⟨.inl ⟨"read".toList, rfl⟩, photo_not_inherited⟩)
  exact ⟨contract, permissions, hassertion, hpermissions, hregroups.same⟩

end ContractNegotiator

end UserManagedAccess.Dialog
