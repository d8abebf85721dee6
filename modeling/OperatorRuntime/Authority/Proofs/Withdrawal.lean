/-
When authority can be withdrawn. A halt fails on the bound of the file
alone, which the reasons it writes into the leases count against. A
revocation fails there too, and on its own text: the reason it gives the
leases below is 24 bytes longer than the one it was given, and is held to
the same bound (`long_reason_not_revoked`). Nothing else fails: what is
written passes the validation of the next read.
-/
import OperatorRuntime.Authority.Proofs.LeaseRuns

namespace OperatorRuntime.Authority

open Lib

-- ===== bytes

/-- What a withdrawal adds to the file. -/
def withdrawalBytes (at' : Instant) (reason : String) : Nat :=
  Json.fieldsBytes 2 (withdrawalJson (some at') (some reason))

/-- The fields of a lease that never change. -/
def constantJson (lease : EnterpriseAuthorityLease) : JsonObject :=
  [("id", .str lease.id.val), ("principalId", .str lease.principalId),
    ("purpose", .str lease.purpose), ("grant", grantJson lease.grant),
    ("authorityRevision", .num (toString lease.authorityRevision))]
    ++ (lease.parentLeaseId.map fun id => ("parentLeaseId", .str id.val)).toList
    ++ [("issuedAt", .str lease.issuedAt.isoText), ("expiresAt", .str lease.expiresAt.isoText)]

theorem leaseBytes_eq (lease : EnterpriseAuthorityLease) : Json.indentedBytes 2 (leaseJson lease)
    = Json.fieldsBytes 2 (constantJson lease)
      + (8 + (Json.quoteBytes "state" + 2 + Json.quoteBytes lease.state.text))
      + Json.fieldsBytes 2 (withdrawalJson lease.revokedAt lease.revocationReason) + 6 := by
  have hfields : leaseJson lease = .obj (constantJson lease ++ ([("state", .str lease.state.text)]
        ++ withdrawalJson lease.revokedAt lease.revocationReason)) := by
    rw [leaseJson, constantJson]
    simp only [List.append_assoc, List.cons_append, List.nil_append]
  have hne : constantJson lease ++ ([("state", .str lease.state.text)]
      ++ withdrawalJson lease.revokedAt lease.revocationReason) ≠ [] := by
    rw [constantJson]
    exact List.cons_ne_nil _ _
  rw [hfields, Json.indentedBytes_obj hne, Json.fieldsBytes_append, Json.fieldsBytes_append]
  simp only [Json.fieldsBytes, Json.indentedBytes]
  omega

theorem constantJson_same {lease lease' : EnterpriseAuthorityLease} (h : SameLease lease lease') :
    constantJson lease' = constantJson lease := by
  rw [constantJson, constantJson, h.id, h.principalId, h.purpose, h.grant, h.authorityRevision,
    h.parentLeaseId, h.issuedAt, h.expiresAt]

theorem stateBytes : Json.quoteBytes (EnterpriseAuthorityLeaseState.text .active) = 8
    ∧ Json.quoteBytes (EnterpriseAuthorityLeaseState.text .revoked) = 9
    ∧ Json.quoteBytes (EnterpriseAuthorityLeaseState.text .expired) = 9
    ∧ Json.quoteBytes (EnterpriseAuthorityLeaseState.text .halted) = 8 := by
  decide

theorem fieldsBytes_none : Json.fieldsBytes 2 (withdrawalJson none none) = 0 := rfl

theorem fileBytes_map (leases : List EnterpriseAuthorityLease)
    (f : EnterpriseAuthorityLease → EnterpriseAuthorityLease)
    (growth : EnterpriseAuthorityLease → Nat)
    (h : ∀ lease ∈ leases, Json.indentedBytes 2 (leaseJson (f lease))
      = Json.indentedBytes 2 (leaseJson lease) + growth lease)
    (emergencyHalt : Bool) (emergencyReason : Option String) :
    fileBytes { emergencyHalt, emergencyReason, leases := leases.map f }
      = fileBytes { emergencyHalt, emergencyReason, leases } + (leases.map growth).sum := by
  have hne : ∀ more : JsonObject, headJson emergencyHalt emergencyReason ++ more ≠ [] := by
    intro more
    rw [headJson]
    exact List.cons_ne_nil _ _
  rw [fileBytes, fileBytes, Json.indentedBytes_obj (hne _), Json.indentedBytes_obj (hne _),
    Json.fieldsBytes_append, Json.fieldsBytes_append, List.map_map]
  have harr : Json.indentedBytes 1 (.arr (leases.map (leaseJson ∘ f)))
      = Json.indentedBytes 1 (.arr (leases.map leaseJson)) + (leases.map growth).sum :=
    Json.indentedBytes_arr_map h
  simp only [Json.fieldsBytes, Nat.zero_add]
  omega

-- ===== texts

theorem includesChar_append (a b : String) (c : Char) :
    includesChar (a ++ b) c = (includesChar a c || includesChar b c) := by
  rw [includesChar, includesChar, includesChar, String.toList_append, Bool.eq_iff_iff]
  simp only [Bool.or_eq_true, List.contains_iff_mem, List.mem_append]

theorem unfit_ancestor {reason : String} (h : ¬ unfit reason 2048) :
    unfit ("ancestor lease revoked: " ++ reason) 2048 ↔ 2048 < reason.utf8ByteSize + 24 := by
  have hsize : ("ancestor lease revoked: " ++ reason).utf8ByteSize = reason.utf8ByteSize + 24 := by
    have hlead : "ancestor lease revoked: ".utf8ByteSize = 24 := by decide
    rw [String.utf8ByteSize_append, hlead, Nat.add_comm]
  have hblank : ¬ ("ancestor lease revoked: " ++ reason).toList.all isBlank = true := by
    rw [String.toList_append, List.all_append, Bool.and_eq_true]
    have hlead : "ancestor lease revoked: ".toList.all isBlank = false := by
      decide
    rw [hlead]
    exact fun hboth => Bool.false_ne_true hboth.1
  have hzero : ¬ includesChar ("ancestor lease revoked: " ++ reason) '\x00' = true := by
    have hlead : includesChar "ancestor lease revoked: " '\x00' = false := by decide
    rw [includesChar_append, hlead, Bool.false_or]
    exact fun hin => h (.inr (.inr hin))
  rw [unfit, hsize]
  constructor
  · intro hunfit
    exact (hunfit.resolve_left hblank).resolve_right hzero
  · intro hlong
    exact .inr (.inl hlong)

-- ===== conditions

/-- The lease is active and unexpired. -/
def Live (now : Instant) (lease : EnterpriseAuthorityLease) : Prop :=
  lease.state = .active ∧ now.val < lease.expiresAt.val

/-- Another live lease below the one. -/
def Dependent (now : Instant) (leases : List EnterpriseAuthorityLease)
    (lease other : EnterpriseAuthorityLease) : Prop :=
  other.id ≠ lease.id ∧ Above leases lease other ∧ Live now other

open Classical in
/-- The bytes `revoke` adds to a lease of the file: `EXPIRED` and `REVOKED`
are a byte longer than `ACTIVE`. -/
noncomputable def revokeGrowth (env : Environment) (leases : List EnterpriseAuthorityLease)
    (lease : EnterpriseAuthorityLease) (reason : String) (other : EnterpriseAuthorityLease) : Nat :=
  if other.state = .active ∧ other.expiresAt.val ≤ env.now.val then 1
  else if ¬ Live env.now lease then 0
  else if other.id = lease.id then 1 + withdrawalBytes env.next reason
  else if Dependent env.now leases lease other then
    1 + withdrawalBytes env.next ("ancestor lease revoked: " ++ reason)
  else 0

/-- The reason is short enough for the leases below, and the file has room
for what the revocation writes. -/
structure RevokeFits (env : Environment) (stored : AuthorityLeaseStateFile)
    (lease : EnterpriseAuthorityLease) (reason : String) : Prop where
  text : Live env.now lease → (∃ other ∈ stored.leases, Dependent env.now stored.leases lease other) →
    reason.utf8ByteSize + 24 ≤ 2048
  size : fileBytes stored
    + (stored.leases.map (revokeGrowth env stored.leases lease reason)).sum ≤ maxBytes

/-- The bytes `emergencyHalt` adds to a lease of the file. -/
def haltGrowth (env : Environment) (reason : String) (lease : EnterpriseAuthorityLease) : Nat :=
  if lease.state = .active then withdrawalBytes env.now reason else 0

/-- The file has room for what the halt writes. -/
def HaltFits (env : Environment) (stored : AuthorityLeaseStateFile) (reason : String) : Prop :=
  fileBytes { stored with emergencyHalt := true, emergencyReason := some reason }
    + (stored.leases.map (haltGrowth env reason)).sum ≤ maxBytes

-- ===== halts

theorem Sound.withdraw {lease : EnterpriseAuthorityLease} (h : Sound lease)
    {state : EnterpriseAuthorityLeaseState} {at' : Instant} {reason : String}
    (hat : lease.issuedAt.val ≤ at'.val) (hfit : ¬ unfit reason 2048) :
    Sound (withdraw state at' reason lease) where
  principalId := h.principalId
  purpose := h.purpose
  authorityRevision := h.authorityRevision
  lifetime := h.lifetime
  grant := h.grant
  expiresAt := h.expiresAt
  reason := by
    intro r hr
    rw [← Option.some.inj hr]
    exact hfit
  revokedAt := by
    intro t ht
    rw [← Option.some.inj ht]
    exact hat
  withdrawn := fun _ => ⟨Option.some_ne_none _, Option.some_ne_none _⟩

theorem Sound.expire {lease : EnterpriseAuthorityLease} (h : Sound lease) (now : Instant) :
    Sound (expireLease now lease) := by
  rw [expireLease]
  split
  · exact { h with withdrawn := fun hstate => by rcases hstate with hs | hs <;> cases hs }
  · exact h

section
variable {α : Type} {stored state : AuthorityLeaseStateFile} {value : α}

variable (stored value) in
theorem commit_durable (hgranted : Granted state) :
    (commit .durable stored (.ok (state, value)) = (state, .ok value)
        ∧ Valid state ∧ fileBytes state ≤ maxBytes)
      ∨ ((∃ e, commit .durable stored (.ok (state, value)) = (stored, .error e))
        ∧ ¬ (Valid state ∧ fileBytes state ≤ maxBytes)) := by
  unfold commit
  cases hvalid : validateState state with
  | error e =>
    have haccept : accept state = .error e := by
      rw [accept, hvalid]
      rfl
    refine .inr ⟨⟨e, replaceState_error haccept⟩, fun h => ?_⟩
    rw [h.1.validateState] at hvalid
    cases hvalid
  | ok state' =>
    obtain rfl := validateState_eq hvalid hgranted
    by_cases hsize : maxBytes < fileBytes state'
    · have haccept : ∃ e, accept state' = .error e := by
        rw [accept, hvalid, ok_bind, corruptIf, rejectIf, if_pos hsize]
        exact ⟨_, rfl⟩
      obtain ⟨e, haccept⟩ := haccept
      exact .inr ⟨⟨e, replaceState_error haccept⟩, fun h => absurd h.2 (not_le.2 hsize)⟩
    · have haccept : accept state' = .ok () := by
        rw [accept, hvalid, ok_bind, corruptIf, rejectIf, if_neg hsize]
      exact .inl ⟨replaceState_ok haccept, valid_of_ok hvalid, not_lt.1 hsize⟩

end

/-- The halt returned, and the file shows it. -/
def Halts (env : Environment) (stored : AuthorityLeaseStateFile) (reason : String) : Prop :=
  (emergencyHalt env stored reason).2 = .ok ()
    ∧ (emergencyHalt env stored reason).1.emergencyHalt = true
    ∧ ∀ lease ∈ (emergencyHalt env stored reason).1.leases, lease.state ≠ .active

section
variable {m : Machine} {env : Environment} {reason : String}

theorem haltedOf_bytes (hinv : Inv m) {lease : EnterpriseAuthorityLease}
    (hlease : lease ∈ m.stored.leases) :
    Json.indentedBytes 2 (leaseJson (haltedOf env.now reason lease))
    = Json.indentedBytes 2 (leaseJson lease) + haltGrowth env reason lease := by
  rw [haltedOf, haltGrowth]
  split
  · next hactive =>
    obtain ⟨hat, hreason⟩ := hinv.clean lease hlease hactive
    obtain ⟨hA, -, -, hH⟩ := stateBytes
    rw [leaseBytes_eq, leaseBytes_eq, constantJson_same (withdraw_same ..), hat, hreason,
      fieldsBytes_none, hactive, hA, withdrawalBytes]
    simp only [withdraw, hH]
    omega
  · rfl

theorem halts_iff (hinv : Inv m) (hnow : m.now.val ≤ env.now.val) (hdisk : env.disk = .durable)
    (hfit : ¬ unfit reason 2048) : Halts env m.stored reason ↔ HaltFits env m.stored reason := by
  have hok := (@halted_eq_ok env _ _ hinv.valid reason ()).2 ⟨hfit, rfl⟩
  have hbytes := fileBytes_map m.stored.leases (haltedOf env.now reason)
    (haltGrowth env reason) (fun _ h => haltedOf_bytes hinv h) true (some reason)
  have hsound : Valid
      { emergencyHalt := true, emergencyReason := some reason
        leases := m.stored.leases.map (haltedOf env.now reason) } := by
    refine hinv.valid.withLeases (haltedOf_same env.now reason) ?_ ?_
    · intro r hr
      rw [← Option.some.inj hr]
      exact hfit
    · intro lease hl
      rw [haltedOf]
      split
      · exact (hinv.valid.leases lease hl).withdraw ((hinv.past lease hl).trans hnow) hfit
      · exact hinv.valid.leases lease hl
  rw [Halts, HaltFits, emergencyHalt, hdisk, hok]
  rcases commit_durable m.stored ()
    (hinv.valid.granted_map (haltedOf_same env.now reason) _ _) with
    ⟨heq, -, hsize⟩ | ⟨⟨e, heq⟩, hnot⟩
  · rw [heq]
    refine ⟨fun _ => hbytes ▸ hsize, fun _ => ⟨rfl, rfl, ?_⟩⟩
    refine List.forall_mem_map.2 fun lease _ => ?_
    rw [haltedOf]
    split
    · exact fun h => (by cases h)
    · next hnot => exact hnot
  · rw [heq]
    refine ⟨fun h => (by cases h.1), fun hsize => ?_⟩
    exact absurd ⟨hsound, hbytes ▸ hsize⟩ hnot

end

-- ===== revocation

theorem under_iff_above {leases : List EnterpriseAuthorityLease}
    (hnodup : (leases.map (·.id)).Nodup) {root other : EnterpriseAuthorityLease}
    (hother : other ∈ leases) : Under leases root.id other ↔ Above leases root other := by
  constructor
  · intro ⟨p, hparent, hin⟩
    have hreach := mem_spread_iff.1 hin
    exact Relation.TransGen.tail'_iff.2 ⟨p, hreach, other, hother, hparent, rfl⟩
  · intro habove
    obtain ⟨p, hparent, hcases⟩ := above_cases hnodup hother habove
    refine ⟨p, hparent, mem_spread_iff.2 ?_⟩
    rcases hcases with rfl | hbelow
    · exact Relation.ReflTransGen.refl
    · exact hbelow.to_reflTransGen

theorem under_expire {leases : List EnterpriseAuthorityLease} {now : Instant} {root : Uuid}
    {other : EnterpriseAuthorityLease} :
    Under (leases.map (expireLease now)) root (expireLease now other) ↔ Under leases root other := by
  have hsame := expireLease_same now
  rw [Under, Under, lineage, lineage, (hsame other).parentLeaseId, List.length_map,
    spread_map (fun l => (hsame l).id) (fun l => (hsame l).parentLeaseId)]

theorem expireLease_live {now : Instant} {lease : EnterpriseAuthorityLease} :
    (expireLease now lease).state = .active ↔ Live now lease := by
  constructor
  · intro h
    obtain ⟨hstate, hlive, -⟩ := expireLease_active h
    exact ⟨hstate, hlive⟩
  · intro ⟨hstate, hlive⟩
    rw [expireLease, if_neg (by rw [not_and, not_le]; exact fun _ => hlive)]
    exact hstate

/-- What `revoke` makes of one lease of the file. -/
def afterRevoke (env : Environment) (leases : List EnterpriseAuthorityLease)
    (lease : EnterpriseAuthorityLease) (reason : String) (other : EnterpriseAuthorityLease) :
    EnterpriseAuthorityLease :=
  if (expireLease env.now lease).state = .active then
    revokedOf (leases.map (expireLease env.now)) lease.id env.next reason
      (expireLease env.now other)
  else expireLease env.now other

/-- The revocation returned, and the file shows it. -/
def Revokes (env : Environment) (stored : AuthorityLeaseStateFile)
    (lease : EnterpriseAuthorityLease) (idInput reason : String) : Prop :=
  (∃ answer, (revoke env stored idInput reason).2 = .ok answer ∧ answer.id = lease.id)
    ∧ ∃ l ∈ (revoke env stored idInput reason).1.leases, l.id = lease.id ∧ l.state ≠ .active

section
variable {m : Machine} {env : Environment} {lease other : EnterpriseAuthorityLease}
  {reason : String}

variable (env lease reason) in
theorem afterRevoke_same (leases : List EnterpriseAuthorityLease) (other : EnterpriseAuthorityLease) :
    SameLease other (afterRevoke env leases lease reason other) := by
  rw [afterRevoke]
  split
  · exact (expireLease_same env.now other).trans (revokedOf_same ..)
  · exact expireLease_same env.now other

variable (env reason) in
theorem afterRevoke_cases (hinv : Inv m) (hlease : lease ∈ m.stored.leases)
    (hother : other ∈ m.stored.leases) :
    ((Live env.now lease → ¬ Dependent env.now m.stored.leases lease other)
        ∧ afterRevoke env m.stored.leases lease reason other = expireLease env.now other
        ∧ revokeGrowth env m.stored.leases lease reason other
          = if other.state = .active ∧ other.expiresAt.val ≤ env.now.val then 1 else 0)
      ∨ (Live env.now lease ∧ other.id = lease.id
        ∧ afterRevoke env m.stored.leases lease reason other
          = withdraw .revoked env.next reason (expireLease env.now other)
        ∧ revokeGrowth env m.stored.leases lease reason other = 1 + withdrawalBytes env.next reason)
      ∨ (Live env.now lease ∧ Dependent env.now m.stored.leases lease other
        ∧ afterRevoke env m.stored.leases lease reason other
          = withdraw .revoked env.next ("ancestor lease revoked: " ++ reason)
            (expireLease env.now other) ∧ revokeGrowth env m.stored.leases lease reason other
          = 1 + withdrawalBytes env.next ("ancestor lease revoked: " ++ reason)) := by
  have hid := (expireLease_same env.now other).id
  rw [afterRevoke, revokeGrowth]
  by_cases hlive : Live env.now lease
  · rw [if_pos (expireLease_live.2 hlive), revokedOf, hid]
    by_cases hsame : other.id = lease.id
    · have hunexpired : ¬ (other.state = .active ∧ other.expiresAt.val ≤ env.now.val) := by
        rw [List.inj_on_of_nodup_map hinv.valid.ids hother hlease hsame]
        exact fun h => absurd h.2 (not_le.2 hlive.2)
      rw [if_pos hsame, if_neg hunexpired, if_neg (not_not.2 hlive), if_pos hsame]
      exact .inr (.inl ⟨hlive, hsame, rfl, rfl⟩)
    · have hiff : (Under (m.stored.leases.map (expireLease env.now)) lease.id
          (expireLease env.now other) ∧ (expireLease env.now other).state = .active)
          ↔ Dependent env.now m.stored.leases lease other := by
        rw [under_expire, under_iff_above hinv.valid.ids hother, expireLease_live]
        exact ⟨fun h => ⟨hsame, h⟩, fun h => h.2⟩
      rw [if_neg hsame]
      by_cases hbelow : Dependent env.now m.stored.leases lease other
      · rw [if_pos (hiff.2 hbelow), if_neg fun h => absurd h.2 (not_le.2 hbelow.2.2.2),
          if_neg (not_not.2 hlive), if_neg hsame, if_pos hbelow]
        exact .inr (.inr ⟨hlive, hbelow, rfl, rfl⟩)
      · rw [if_neg fun h => hbelow (hiff.1 h)]
        refine .inl ⟨fun _ => hbelow, rfl, ?_⟩
        rw [if_neg (not_not.2 hlive), if_neg hsame, if_neg hbelow]
  · rw [if_neg fun h => hlive (expireLease_live.1 h), if_pos hlive]
    exact .inl ⟨fun h => absurd h hlive, rfl, rfl⟩

theorem withdraw_bytes (hinv : Inv m) (hother : other ∈ m.stored.leases)
    (hlive : Live env.now other) (at' : Instant) (text : String) :
    Json.indentedBytes 2 (leaseJson (withdraw .revoked at' text (expireLease env.now other)))
    = Json.indentedBytes 2 (leaseJson other) + (1 + withdrawalBytes at' text) := by
  obtain ⟨hactive, -, hsame⟩ := expireLease_active (expireLease_live.2 hlive)
  obtain ⟨hat, hreason⟩ := hinv.clean other hother hactive
  obtain ⟨hA, hR, -, -⟩ := stateBytes
  rw [hsame, leaseBytes_eq, leaseBytes_eq, constantJson_same (withdraw_same ..), hat, hreason,
    fieldsBytes_none, hactive, hA, withdrawalBytes]
  simp only [withdraw, hR]
  omega

theorem expireLease_bytes : Json.indentedBytes 2 (leaseJson (expireLease env.now other))
    = Json.indentedBytes 2 (leaseJson other)
      + if other.state = .active ∧ other.expiresAt.val ≤ env.now.val then 1 else 0 := by
  have hsame := constantJson_same (expireLease_same env.now other)
  rw [leaseBytes_eq, leaseBytes_eq, hsame, expireLease]
  split
  · next hexpired =>
    obtain ⟨hA, -, hE, -⟩ := stateBytes
    rw [hexpired.1, hA]
    simp only [hE]
    omega
  · rfl

theorem afterRevoke_bytes (hinv : Inv m) (hlease : lease ∈ m.stored.leases)
    (hother : other ∈ m.stored.leases) :
    Json.indentedBytes 2 (leaseJson (afterRevoke env m.stored.leases lease reason other))
    = Json.indentedBytes 2 (leaseJson other)
      + revokeGrowth env m.stored.leases lease reason other := by
  rcases afterRevoke_cases env reason hinv hlease hother with
    ⟨-, heq, hgrowth⟩ | ⟨hlive, hid, heq, hgrowth⟩ | ⟨-, hbelow, heq, hgrowth⟩
  · rw [heq, hgrowth, expireLease_bytes]
  · rw [heq, hgrowth]
    rw [← List.inj_on_of_nodup_map hinv.valid.ids hother hlease hid] at hlive
    exact withdraw_bytes hinv hother hlive ..
  · rw [heq, hgrowth]
    exact withdraw_bytes hinv hother hbelow.2.2 ..

variable (env) in
theorem revoked_of (hinv : Inv m) (hlease : lease ∈ m.stored.leases) {idInput : String}
    (hid : uuid? idInput = some lease.id) (hfit : ¬ unfit reason 2048) :
    ∃ answer, answer.id = lease.id ∧ revoked env m.stored idInput reason = .ok ({ m.stored with
            leases := m.stored.leases.map (afterRevoke env m.stored.leases lease reason) },
            answer) := by
  have hsame := expireLease_same env.now
  have hfind : byId (m.stored.leases.map (expireLease env.now)) lease.id
      = some (expireLease env.now lease) := by
    rw [byId_map hsame]
    have hone : byId m.stored.leases lease.id = some lease :=
      (find?_key_eq_some hinv.valid.ids).2 ⟨hlease, rfl⟩
    rw [hone]
    rfl
  have hread := hinv.valid.validateState
  have huuid : uuid idInput "leaseId" = .ok lease.id := by
    rw [uuid, hid]
  rw [revoked, huuid, boundedText_eq_ok.2 ⟨rfl, hfit⟩, hread]
  simp only [ok_bind, expire]
  rw [hfind]
  dsimp only
  split
  · next hactive =>
    refine ⟨withdraw .revoked env.next reason (expireLease env.now lease), (hsame lease).id, ?_⟩
    rw [revokeLease_eq, List.map_map]
    congr 4
    funext other
    rw [Function.comp_apply, afterRevoke, if_pos hactive]
  · next hinactive =>
    refine ⟨_, (hsame lease).id, ?_⟩
    congr 4
    funext other
    rw [afterRevoke, if_neg hinactive]

/-- The file still validates unless the reason is too long for the leases below. -/
theorem afterRevoke_valid_iff (hinv : Inv m) (hlease : lease ∈ m.stored.leases)
    (hnow : m.now.val ≤ env.next.val) (hfit : ¬ unfit reason 2048) : Valid { m.stored with
        leases := m.stored.leases.map (afterRevoke env m.stored.leases lease reason) }
      ↔ (Live env.now lease →
          (∃ other ∈ m.stored.leases, Dependent env.now m.stored.leases lease other) →
        reason.utf8ByteSize + 24 ≤ 2048) := by
  constructor
  · intro hvalid hlive ⟨other, hother, hbelow⟩
    have hsound := hvalid.leases _ (List.mem_map_of_mem hother)
    rcases afterRevoke_cases env reason hinv hlease hother with
      ⟨hnone, -⟩ | ⟨-, hid, -⟩ | ⟨-, -, heq, -⟩
    · exact absurd hbelow (hnone hlive)
    · exact absurd hid hbelow.1
    · rw [heq] at hsound
      have hshort := hsound.reason _ rfl
      rw [unfit_ancestor hfit] at hshort
      exact not_lt.1 hshort
  · intro hcond
    refine hinv.valid.withLeases (fun other => afterRevoke_same env lease reason _ other)
      hinv.valid.emergencyReason ?_
    intro other hother
    have hsound := (hinv.valid.leases other hother).expire env.now
    have hpast : (expireLease env.now other).issuedAt.val ≤ env.next.val := by
      rw [(expireLease_same env.now other).issuedAt]
      exact (hinv.past other hother).trans hnow
    rcases afterRevoke_cases env reason hinv hlease hother with
      ⟨-, heq, -⟩ | ⟨-, -, heq, -⟩ | ⟨hlive, hbelow, heq, -⟩
    · rw [heq]
      exact hsound
    · rw [heq]
      exact hsound.withdraw hpast hfit
    · rw [heq]
      refine hsound.withdraw hpast ?_
      rw [unfit_ancestor hfit]
      exact not_lt.2 (hcond hlive ⟨other, hother, hbelow⟩)

theorem revokes_iff (hinv : Inv m) (hlease : lease ∈ m.stored.leases) {idInput : String}
    (hnow : m.now.val ≤ env.next.val) (hdisk : env.disk = .durable)
    (hid : uuid? idInput = some lease.id) (hfit : ¬ unfit reason 2048) :
    Revokes env m.stored lease idInput reason ↔ RevokeFits env m.stored lease reason := by
  obtain ⟨answer, hanswer, hok⟩ := revoked_of env hinv hlease hid hfit
  have hbytes := fileBytes_map m.stored.leases (afterRevoke env m.stored.leases lease reason)
    (revokeGrowth env m.stored.leases lease reason)
    (fun _ h => afterRevoke_bytes hinv hlease h) m.stored.emergencyHalt m.stored.emergencyReason
  have hvalid := afterRevoke_valid_iff hinv hlease hnow hfit
  rw [Revokes, revoke, hdisk, hok]
  rcases commit_durable m.stored answer
    (hinv.valid.granted_map (fun other => afterRevoke_same env lease reason m.stored.leases other)
      _ _) with ⟨heq, hstate, hsize⟩ | ⟨⟨e, heq⟩, hnot⟩
  · rw [heq]
    refine ⟨fun _ => ⟨hvalid.1 hstate, hbytes ▸ hsize⟩, fun _ => ⟨⟨answer, rfl, hanswer⟩, ?_⟩⟩
    refine ⟨_, List.mem_map_of_mem hlease, (afterRevoke_same env lease reason _ lease).id, ?_⟩
    intro hactive
    rw [afterRevoke] at hactive
    split at hactive
    · next hbefore =>
      exact (revokedOf_active hactive).1 (expireLease_same env.now lease).id
    · next hbefore => exact hbefore hactive
  · rw [heq]
    constructor
    · intro h
      obtain ⟨⟨_, hans, -⟩, -⟩ := h
      cases hans
    · intro hfits
      exact absurd ⟨hvalid.2 hfits.text, hbytes ▸ hfits.size⟩ hnot

end

-- ===== runs

/-- In every state reached, a revocation and a halt succeed, and the file
shows them, exactly when they fit. -/
theorem authority_withdrawn_iff_fits (now : Instant) (calls : List Call) (m : Machine)
    (hrun : Run (stepsOf step) (start now) calls m) (env : Environment)
    (hnow : m.now.val ≤ env.now.val) (hnext : env.now.val ≤ env.next.val)
    (hdisk : env.disk = .durable) (reason : String)
    (hreason : boundedText reason 2048 "reason" = .ok reason) :
    (∀ lease ∈ m.stored.leases, ∀ idInput, uuid? idInput = some lease.id →
        (Revokes env m.stored lease idInput reason ↔ RevokeFits env m.stored lease reason))
      ∧ (Halts env m.stored reason ↔ HaltFits env m.stored reason) := by
  have hinv := inv_of_run hrun
  have hfit := (boundedText_eq_ok.1 hreason).2
  constructor
  · intro lease hlease idInput hid
    exact revokes_iff hinv hlease (hnow.trans hnext) hdisk hid hfit
  · exact halts_iff hinv hnow hdisk hfit

/-- The sample leases are revoked and halted. -/
theorem authority_withdrawn_sample : ∃ m, Run (stepsOf step) (start sampleEnv.now)
      (sampleCalls ["/srv/www"]) m
    ∧ RevokeFits sampleEnv m.stored (sampleLease aParent ["/srv"] none) "rotated"
    ∧ HaltFits sampleEnv m.stored "rotated" := by
  have hend : (exec step (start sampleEnv.now) (sampleCalls ["/srv/www"])).any
      (fun m : Machine => decide (m.stored.leases = [sampleLease aParent ["/srv"] none,
          sampleLease aChild ["/srv/www"] (some aParent)])
        && decide (m.now = sampleEnv.now)
        && decide ((emergencyHalt sampleEnv m.stored "rotated").2.toOption = some ()
          ∧ (emergencyHalt sampleEnv m.stored "rotated").1.emergencyHalt = true
          ∧ ∀ lease ∈ (emergencyHalt sampleEnv m.stored "rotated").1.leases, lease.state ≠ .active)
        && decide ((revoke sampleEnv m.stored aParent.val "rotated").2.toOption.map (·.id)
            = some aParent
          ∧ ∃ l ∈ (revoke sampleEnv m.stored aParent.val "rotated").1.leases,
            l.id = aParent ∧ l.state ≠ .active)) := by
    decide +kernel
  obtain ⟨m, hm, hall⟩ := Option.any_eq_true _ _ |>.1 hend
  simp only [Bool.and_eq_true, decide_eq_true_eq] at hall
  obtain ⟨⟨⟨hleases, hnow⟩, hhalt, hflag, hstates⟩, hrevoke, hshown⟩ := hall
  have hparent : sampleLease aParent ["/srv"] none ∈ m.stored.leases := by
    rw [hleases]
    exact List.mem_cons_self ..
  have hreason : boundedText "rotated" 2048 "reason" = .ok "rotated" := by
    rw [boundedText_eq_ok]
    decide
  obtain ⟨hrevokes, hhalts⟩ := authority_withdrawn_iff_fits _ _ m (run_of_exec hm) sampleEnv
    (by rw [hnow]) (le_refl _) rfl "rotated" hreason
  refine ⟨m, run_of_exec hm, ?_, hhalts.1 ⟨toOption_eq_some.1 hhalt, hflag, hstates⟩⟩
  obtain ⟨answer, hanswer, hid⟩ := Option.map_eq_some_iff.1 hrevoke
  exact (hrevokes _ hparent aParent.val (by decide +kernel)).1
    ⟨⟨answer, toOption_eq_some.1 hanswer, hid⟩, hshown⟩

/-- A reason of that many letters. -/
def letters (n : Nat) : String := String.ofList (List.replicate n 'a')

theorem utf8ByteSize_letters (n : Nat) : (letters n).utf8ByteSize = n := by
  induction n with
  | zero => rfl
  | succ n ih =>
    rw [letters] at ih ⊢
    rw [List.replicate_succ, ← List.singleton_append, String.ofList_append,
      String.utf8ByteSize_append, ih, Nat.add_comm]
    rfl

theorem letters_fit {n : Nat} (hpos : 0 < n) (hle : n ≤ 2048) : ¬ unfit (letters n) 2048 := by
  have hlist : (letters n).toList = List.replicate n 'a' := String.toList_ofList
  rw [unfit, utf8ByteSize_letters, includesChar, hlist]
  intro h
  rcases h with hblank | hlong | hzero
  · have hone := List.all_eq_true.1 hblank 'a' (List.mem_replicate.2 ⟨by omega, rfl⟩)
    revert hone
    decide
  · omega
  · have heq := List.eq_of_mem_replicate (List.contains_iff_mem.1 hzero)
    revert heq
    decide

/-- A lease with a live one below it is not revoked for a reason of 2025
bytes. -/
theorem long_reason_not_revoked : ¬ ∀ now calls m, Run (stepsOf step) (start now) calls m →
    ∀ env, m.now.val ≤ env.now.val → env.now.val ≤ env.next.val → env.disk = .durable →
    ∀ reason, boundedText reason 2048 "reason" = .ok reason →
    ∀ lease ∈ m.stored.leases, ∀ idInput, uuid? idInput = some lease.id →
      Revokes env m.stored lease idInput reason := by
  intro h
  have hend : (exec step (start sampleEnv.now) (sampleCalls ["/srv/www"])).any
      (fun m => decide (m.stored.leases = [sampleLease aParent ["/srv"] none,
          sampleLease aChild ["/srv/www"] (some aParent)])
        && decide (m.now = sampleEnv.now)) := by
    decide +kernel
  obtain ⟨m, hm, hboth⟩ := Option.any_eq_true _ _ |>.1 hend
  simp only [Bool.and_eq_true, decide_eq_true_eq] at hboth
  obtain ⟨hleases, hnow⟩ := hboth
  have hparent : sampleLease aParent ["/srv"] none ∈ m.stored.leases := by
    rw [hleases]
    exact List.mem_cons_self ..
  have hchild : sampleLease aChild ["/srv/www"] (some aParent) ∈ m.stored.leases := by
    rw [hleases]
    exact List.mem_cons_of_mem _ (List.mem_singleton_self _)
  have hid : uuid? aParent.val = some aParent := by decide +kernel
  have hle : m.now.val ≤ sampleEnv.now.val := by rw [hnow]
  obtain ⟨reason, hfit, hlong⟩ : ∃ reason, ¬ unfit reason 2048 ∧ reason.utf8ByteSize = 2025 :=
    ⟨letters 2025, letters_fit (by omega) (by omega), utf8ByteSize_letters 2025⟩
  have hrevokes := h _ _ m (run_of_exec hm) sampleEnv hle (le_refl _) rfl reason
    (boundedText_eq_ok.2 ⟨rfl, hfit⟩) _ hparent aParent.val hid
  have hinv := inv_of_run (run_of_exec hm)
  rw [revokes_iff hinv hparent hle rfl hid hfit] at hrevokes
  have hlive : ∀ id prefixes parent, Live sampleEnv.now (sampleLease id prefixes parent) :=
    fun _ _ _ => ⟨rfl, show (0 : Int) < 60000 by decide⟩
  have hshort := hrevokes.text (hlive ..)
    ⟨_, hchild, by decide, above_sample hchild, hlive ..⟩
  omega

end OperatorRuntime.Authority
