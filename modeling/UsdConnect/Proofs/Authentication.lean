/-
Purpose: Trust on first use holds of an interleaving exactly when no call issues a token for an id
  that has been given one since the call looked.
Trusted boundary: none
Main exports: authenticate_alone, trustOnFirstUse_iff
-/
import UsdConnect.Server.Authentication
import Mathlib.Data.List.Induction

namespace UsdConnect

/-! ### The store -/

theorem isAscii_of_isHexDigit {character : Char} (digit : isHexDigit character = true) :
    character.toNat < 128 := by
  unfold isHexDigit at digit
  rcases Bool.or_eq_true_iff.1 digit with decimal | letter
  · have upper := of_decide_eq_true (Bool.and_eq_true_iff.1 decimal).2
    exact lt_of_le_of_lt (show character.toNat ≤ '9'.toNat from upper) (by decide)
  · have upper := of_decide_eq_true (Bool.and_eq_true_iff.1 letter).2
    exact lt_of_le_of_lt (show character.toNat ≤ 'f'.toNat from upper) (by decide)

theorem HexToken.isAscii (token : HexToken) : isAscii token.text = true := by
  unfold UsdConnect.isAscii
  rw [List.all_eq_true]
  intro character member
  exact decide_eq_true (isAscii_of_isHexDigit (List.all_eq_true.1 token.digits character member))

/-- A comparison succeeds for the token's own text only. -/
theorem compareDigest_eq_true_iff (token : HexToken) (presented : String) :
    compareDigest token.text presented = .ok true ↔ token.text = presented := by
  unfold compareDigest
  constructor
  · intro equal
    split_ifs at equal
    exact eq_of_beq (Except.ok.inj equal)
  · rintro rfl
    rw [token.isAscii, Bool.and_self, if_pos rfl, beq_self_eq_true]

namespace TokenStore

/-- The token that an id has. -/
def tokenOf (store : TokenStore) (clientId : String) : Option HexToken :=
  (store clientId).map TokenRow.token

theorem tokenOf_update (store : TokenStore) (clientId other : String) (row : Option TokenRow) :
    tokenOf (Function.update store clientId row) other =
      if other = clientId then row.map TokenRow.token else store.tokenOf other := by
  unfold tokenOf
  by_cases same : other = clientId
  · rw [same, Function.update_self, if_pos rfl]
  · rw [Function.update_of_ne same, if_neg same]

theorem tokenOf_issue (store : TokenStore) (clientId other : String) (department : Option String)
    (token : HexToken) (now : FloatValue) :
    (store.issue clientId department token now).tokenOf other =
      if other = clientId then some token else store.tokenOf other :=
  tokenOf_update store clientId other _

/-- Verification succeeds for the stored token, and then only notes the time. -/
theorem verify_cases (store : TokenStore) (clientId token : String) (now : FloatValue) :
    ((store.verify clientId token now).1 ≠ .ok true ∧
      (store.verify clientId token now).2 = store ∧
      ∀ row, store clientId = some row → row.token.text ≠ token) ∨
    ∃ row, store clientId = some row ∧ row.token.text = token ∧
      store.verify clientId token now =
        (.ok true, Function.update store clientId (some { row with lastSeen := now })) := by
  unfold verify
  cases held : store clientId with
  | none => exact .inl ⟨nofun, rfl, nofun⟩
  | some row =>
      have differs : compareDigest row.token.text token ≠ .ok true →
          ∀ other, some row = some other → other.token.text ≠ token := by
        rintro unequal other same texts
        cases same
        exact unequal ((compareDigest_eq_true_iff row.token token).2 texts)
      cases compared : compareDigest row.token.text token with
      | error failure =>
          exact .inl ⟨by simp [compared], by simp [compared], differs (compared.trans_ne nofun)⟩
      | ok equal =>
          cases equal with
          | false =>
              exact .inl ⟨by simp [compared], by simp [compared], differs (compared.trans_ne nofun)⟩
          | true =>
              exact .inr ⟨row, rfl, (compareDigest_eq_true_iff row.token token).1 compared,
                by simp only [compared]⟩

theorem tokenOf_verify (store : TokenStore) (clientId token other : String) (now : FloatValue) :
    (store.verify clientId token now).2.tokenOf other = store.tokenOf other := by
  rcases store.verify_cases clientId token now with ⟨-, kept, -⟩ | ⟨row, held, -, verified⟩
  · rw [kept]
  · rw [verified]
    refine (tokenOf_update store clientId other _).trans ?_
    by_cases same : other = clientId
    · rw [if_pos same, same, tokenOf, held]
      rfl
    · exact if_neg same

theorem tokenOf_revoke (store : TokenStore) (clientId other : String) :
    (store.revoke clientId).2.tokenOf other =
      if other = clientId then none else store.tokenOf other :=
  tokenOf_update store clientId other none

theorem verify_eq_true_iff (store : TokenStore) (clientId token : String) (now : FloatValue) :
    (store.verify clientId token now).1 = .ok true ↔
      ∃ stored, store.tokenOf clientId = some stored ∧ stored.text = token := by
  rcases store.verify_cases clientId token now with ⟨failed, -, differs⟩ | ⟨row, held, texts, verified⟩
  · refine iff_of_false failed ?_
    rintro ⟨stored, has, texts⟩
    obtain ⟨row, held, rfl⟩ := Option.map_eq_some_iff.1 has
    exact differs row held texts
  · refine iff_of_true (congrArg Prod.fst verified) ⟨row.token, ?_, texts⟩
    exact Option.map_eq_some_iff.2 ⟨row, held, rfl⟩

end TokenStore

namespace AuthServer

/-! ### A call on its own -/

@[simp] theorem calls_setPhase (server : AuthServer) (connection : Nat) (call : AuthCall)
    (phase : AuthPhase) :
    (server.setPhase connection call phase).calls connection = some { call with phase } :=
  Function.update_self ..

@[simp] theorem store_setPhase (server : AuthServer) (connection : Nat) (call : AuthCall)
    (phase : AuthPhase) : (server.setPhase connection call phase).store = server.store :=
  rfl

theorem waiting_eq_some_iff {server : AuthServer} {connection : Nat} {phase : AuthPhase}
    {call : AuthCall} :
    server.waiting connection phase = some call ↔
      server.calls connection = some call ∧ call.phase = phase := by
  unfold waiting
  rw [Option.filter_eq_some_iff, decide_eq_true_eq]

theorem waiting_setPhase (server : AuthServer) (connection : Nat) (call : AuthCall)
    (phase : AuthPhase) :
    (server.setPhase connection call phase).waiting connection phase =
      some { call with phase } :=
  waiting_eq_some_iff.2 ⟨calls_setPhase .., rfl⟩

/-- Steps of one connection alone end its call with this result and store. -/
def Finishes (server : AuthServer) (connection : Nat) (result : AuthResult × TokenStore) : Prop :=
  ∃ actions final, (∀ action ∈ actions, action.connection = some connection) ∧
    Machine.run step server actions = some final ∧
    (final.calls connection).map AuthCall.phase = some (.done result.1) ∧ final.store = result.2

theorem Finishes.of_done {server : AuthServer} {connection : Nat} {call : AuthCall}
    {result : AuthResult × TokenStore} (has : server.calls connection = some call)
    (done : call.phase = .done result.1) (stored : server.store = result.2) :
    server.Finishes connection result :=
  ⟨[], server, nofun, rfl, by rw [has, Option.map_some, done], stored⟩

theorem Finishes.of_step {server next : AuthServer} {connection : Nat} {action : AuthAction}
    {result : AuthResult × TokenStore} (rest : next.Finishes connection result)
    (own : action.connection = some connection) (stepped : server.step action = some next) :
    server.Finishes connection result := by
  obtain ⟨actions, final, ownRest, ran, done, store⟩ := rest
  refine ⟨action :: actions, final, ?_, Option.bind_eq_some_iff.2 ⟨next, stepped, ran⟩, done, store⟩
  intro other member
  rcases List.mem_cons.1 member with rfl | member
  · exact own
  · exact ownRest other member

theorem issuing_finishes {server : AuthServer} {connection : Nat} {call : AuthCall}
    (waits : server.waiting connection .issuing = some call) (fresh : HexToken)
    (now : FloatValue) :
    server.Finishes connection (.accepted (some fresh),
      server.store.issue call.clientId call.department fresh now) := by
  have stepped : server.step (.issue connection fresh now) =
      some { server.setPhase connection call (.done (.accepted (some fresh))) with
        store := server.store.issue call.clientId call.department fresh now } := by
    simp only [step, perform, waits, Option.map_some]
  refine Finishes.of_step ?_ rfl stepped
  exact Finishes.of_done (server.calls_setPhase connection call _) rfl rfl

theorem verifying_finishes {server : AuthServer} {connection : Nat} {call : AuthCall}
    (waits : server.waiting connection .verifying = some call) (now : FloatValue) :
    server.Finishes connection
      (verdict (server.store.verify call.clientId (call.token.getD "") now).1,
        (server.store.verify call.clientId (call.token.getD "") now).2) := by
  have stepped : server.step (.verify connection now) =
      some { server.setPhase connection call
          (.done (verdict (server.store.verify call.clientId (call.token.getD "") now).1)) with
        store := (server.store.verify call.clientId (call.token.getD "") now).2 } := by
    simp only [step, perform, waits, Option.map_some]
  refine Finishes.of_step ?_ rfl stepped
  exact Finishes.of_done (server.calls_setPhase connection call _) rfl rfl

theorem truthy_getD {given : Option String} {text : String} (nonempty : truthy given = some text) :
    given.getD "" = text := by
  cases given with
  | none => cases nonempty
  | some other =>
      simp only [truthy] at nonempty
      split_ifs at nonempty
      exact Option.some.inj nonempty

/-- What `authenticate` does for a client with an id. -/
theorem checking_finishes {server : AuthServer} {connection : Nat} {call : AuthCall}
    (waits : server.waiting connection .checking = some call) (fresh : HexToken)
    (now : FloatValue) :
    server.Finishes connection
      (if !server.store.hasToken call.clientId then
        (.accepted (some fresh), server.store.issue call.clientId call.department fresh now)
      else
        match truthy call.token with
        | none => (.rejected, server.store)
        | some token =>
            match server.store.verify call.clientId token now with
            | (.ok true, store) => (.accepted none, store)
            | (.ok false, store) => (.rejected, store)
            | (.error failure, store) => (.raised failure, store)) := by
  have stepped : server.step (.hasToken connection) = some (server.setPhase connection call
      (phaseAfterLook call (server.store.hasToken call.clientId))) := by
    simp only [step, perform, waits, Option.map_some]
  refine Finishes.of_step ?_ rfl stepped
  cases server.store.hasToken call.clientId with
  | false => exact issuing_finishes (server.waiting_setPhase connection call .issuing) fresh now
  | true =>
      unfold phaseAfterLook
      cases given : truthy call.token with
      | none => exact Finishes.of_done (server.calls_setPhase connection call _) rfl rfl
      | some token =>
          have verified : (server.setPhase connection call .verifying).Finishes connection
              (verdict (server.store.verify call.clientId (call.token.getD "") now).1,
                (server.store.verify call.clientId (call.token.getD "") now).2) :=
            verifying_finishes (server.waiting_setPhase connection call .verifying) now
          rw [truthy_getD given] at verified
          rcases answered : server.store.verify call.clientId token now with ⟨answer, store⟩
          rw [answered] at verified
          dsimp only
          rw [answered]
          cases answer with
          | error failure => exact verified
          | ok equal =>
              cases equal with
              | false => exact verified
              | true => exact verified

def sampleToken (digit : Char) (isDigit : isHexDigit digit = true) : HexToken where
  text := String.ofList (List.replicate 64 digit)
  digits := by
    rw [String.toList_ofList, List.all_replicate]
    simp [isDigit]
  length := by
    rw [String.toList_ofList, List.length_replicate]

/-- The steps of a call with nothing between them compute `authenticate`. -/
theorem authenticate_alone (server : AuthServer) (connection : Nat)
    (clientId token department : Option String) (fresh : HexToken) (now : FloatValue)
    (free : server.calls connection = none) :
    server.Finishes connection
      (authenticate true server.store clientId token department fresh now) := by
  have called : server.step (.call connection clientId token department) =
      some (server.setPhase connection (newCall clientId token department)
        (newCall clientId token department).phase) := by
    simp only [step, perform, if_pos free, Option.map_some]
    rfl
  refine Finishes.of_step ?_ rfl called
  unfold authenticate newCall
  cases truthy clientId with
  | none => exact Finishes.of_done (server.calls_setPhase connection _ _) rfl rfl
  | some known =>
      exact checking_finishes (server.waiting_setPhase connection _ .checking) fresh now

/-- A first connection is issued a token. -/
theorem authenticate_alone_first :
    initial.Finishes 0 (authenticate true initial.store (some "artist") none none
      (sampleToken 'a' rfl) (.finite 0)) :=
  authenticate_alone initial 0 (some "artist") none none (sampleToken 'a' rfl) (.finite 0) rfl

/-! ### Trust on first use -/

/-- After the given actions, the next one is taken in this state and has this outcome. -/
def Observed (earlier : List AuthAction) (reached : AuthServer) (action : AuthAction)
    (outcome : AuthOutcome) : Prop :=
  Machine.run step initial earlier = some reached ∧
    ∃ next, reached.perform action = some (outcome, next)

/-- The connection that a step accepts. -/
def accepts : AuthOutcome → Option Nat
  | .issued connection _ _ => some connection
  | .verified connection _ (.ok true) => some connection
  | _ => none

/-- What a sequence of steps keeps when identities are trusted on their first use. -/
structure TrustOnFirstUse (actions : List AuthAction) : Prop where
  /-- Between two issues for an id there is a revocation of it. -/
  single : ∀ earlier first between second later reached connection clientId token reached'
    connection' token',
    actions = earlier ++ first :: between ++ second :: later →
    Observed earlier reached first (.issued connection clientId token) →
    Observed (earlier ++ first :: between) reached' second (.issued connection' clientId token') →
    .revoke clientId ∈ between
  /-- An issued token verifies until its id is revoked. -/
  kept : ∀ earlier first between later reached connection clientId token reached' now,
    actions = earlier ++ first :: between ++ later →
    Observed earlier reached first (.issued connection clientId token) →
    Machine.run step initial (earlier ++ first :: between) = some reached' →
    .revoke clientId ∉ between →
    (reached'.store.verify clientId token.text now).1 = .ok true
  /-- Whoever is accepted for an id that has a token presented it. -/
  guarded : ∀ earlier action later reached outcome connection call row,
    actions = earlier ++ action :: later →
    Observed earlier reached action outcome →
    accepts outcome = some connection →
    reached.calls connection = some call →
    reached.store call.clientId = some row →
    call.token = some row.token.text

/-- A token is issued only for an id that has none. -/
def IssuesUntaken (server : AuthServer) : AuthAction → Prop
  | .issue connection _ _ =>
      ∀ call ∈ server.calls connection, server.store call.clientId = none
  | _ => True

instance (server : AuthServer) (action : AuthAction) : Decidable (server.IssuesUntaken action) :=
  match action with
  | .issue connection _ _ =>
      inferInstanceAs (Decidable
        (∀ call ∈ server.calls connection, server.store call.clientId = none))
  | .call .. | .hasToken .. | .verify .. | .revoke .. | .restart => .isTrue trivial

theorem tokenOf_perform {server next : AuthServer} {action : AuthAction} {outcome : AuthOutcome}
    (performed : server.perform action = some (outcome, next)) (clientId : String) :
    (action ≠ .revoke clientId ∧
      next.store.tokenOf clientId = server.store.tokenOf clientId) ∨
    (action = .revoke clientId ∧ next.store.tokenOf clientId = none) ∨
    ∃ connection token, outcome = .issued connection clientId token ∧
      next.store.tokenOf clientId = some token := by
  cases action with
  | call connection id token department =>
      simp only [perform] at performed
      split_ifs at performed
      cases performed
      exact .inl ⟨nofun, rfl⟩
  | hasToken connection =>
      obtain ⟨call, -, done⟩ := Option.map_eq_some_iff.1 performed
      cases done
      exact .inl ⟨nofun, rfl⟩
  | issue connection token now =>
      obtain ⟨call, -, done⟩ := Option.map_eq_some_iff.1 performed
      cases done
      by_cases own : clientId = call.clientId
      · exact .inr (.inr ⟨connection, token, by rw [own],
          (TokenStore.tokenOf_issue ..).trans (if_pos own)⟩)
      · exact .inl ⟨nofun, (TokenStore.tokenOf_issue ..).trans (if_neg own)⟩
  | verify connection now =>
      obtain ⟨call, -, done⟩ := Option.map_eq_some_iff.1 performed
      cases done
      exact .inl ⟨nofun, TokenStore.tokenOf_verify ..⟩
  | revoke other =>
      cases performed
      by_cases own : clientId = other
      · exact .inr (.inl ⟨by rw [own], (TokenStore.tokenOf_revoke ..).trans (if_pos own)⟩)
      · exact .inl ⟨fun same => own (AuthAction.revoke.inj same).symm,
          (TokenStore.tokenOf_revoke ..).trans (if_neg own)⟩
  | restart =>
      cases performed
      exact .inl ⟨nofun, rfl⟩

theorem issued_cases {server next : AuthServer} {action : AuthAction} {connection : Nat}
    {clientId : String} {token : HexToken}
    (performed : server.perform action = some (.issued connection clientId token, next)) :
    ∃ now call, action = .issue connection token now ∧
      server.calls connection = some call ∧ call.clientId = clientId ∧
      next.store.tokenOf clientId = some token := by
  cases action with
  | call other id given department =>
      simp only [perform] at performed
      split_ifs at performed
      cases performed
  | hasToken other =>
      obtain ⟨call, -, done⟩ := Option.map_eq_some_iff.1 performed
      cases done
  | issue other given now =>
      obtain ⟨call, waits, done⟩ := Option.map_eq_some_iff.1 performed
      cases done
      exact ⟨now, call, rfl, (waiting_eq_some_iff.1 waits).1, rfl,
        (TokenStore.tokenOf_issue ..).trans (if_pos rfl)⟩
  | verify other now =>
      obtain ⟨call, -, done⟩ := Option.map_eq_some_iff.1 performed
      cases done
  | revoke other => cases performed
  | restart => cases performed

theorem tokenOf_eq_none_of_issued {server next : AuthServer} {action : AuthAction}
    {connection : Nat} {clientId : String} {token : HexToken}
    (untaken : server.IssuesUntaken action)
    (performed : server.perform action = some (.issued connection clientId token, next)) :
    server.store clientId = none := by
  obtain ⟨now, call, rfl, called, rfl, -⟩ := issued_cases performed
  exact untaken call called

/-- A token stays until its id is revoked, when nobody overwrites it. -/
theorem tokenOf_kept {clientId : String} {token : HexToken} {actions : List AuthAction} :
    ∀ {server final : AuthServer}, Machine.StepsMeet step IssuesUntaken server actions →
      .revoke clientId ∉ actions → Machine.run step server actions = some final →
      server.store.tokenOf clientId = some token → final.store.tokenOf clientId = some token := by
  induction actions with
  | nil =>
      intro server final _ _ ran has
      cases ran
      exact has
  | cons action actions ih =>
      intro server final meets unrevoked ran has
      obtain ⟨next, stepped, rest⟩ := Option.bind_eq_some_iff.1 ran
      obtain ⟨⟨outcome, other⟩, performed, rfl⟩ := Option.map_eq_some_iff.1 stepped
      have later : .revoke clientId ∉ actions := fun member =>
        unrevoked (List.mem_cons_of_mem _ member)
      refine ih (meets.2 _ stepped) later rest ?_
      rcases tokenOf_perform performed clientId with ⟨-, same⟩ | ⟨rfl, -⟩ | ⟨connection, fresh, rfl, -⟩
      · exact same.trans has
      · exact absurd List.mem_cons_self unrevoked
      · have free := tokenOf_eq_none_of_issued meets.1 performed
        rw [TokenStore.tokenOf, free] at has
        cases has

theorem stored_was_issued {clientId : String} {token : HexToken} (actions : List AuthAction) :
    ∀ {reached : AuthServer}, Machine.run step initial actions = some reached →
      reached.store.tokenOf clientId = some token →
      ∃ earlier action between before connection,
        actions = earlier ++ action :: between ∧
        Observed earlier before action (.issued connection clientId token) ∧
        .revoke clientId ∉ between := by
  induction actions using List.reverseRecOn with
  | nil =>
      intro reached ran has
      cases ran
      cases has
  | append_singleton actions action ih =>
      intro reached ran has
      rw [Machine.run_append] at ran
      obtain ⟨before, ranBefore, last⟩ := Option.bind_eq_some_iff.1 ran
      obtain ⟨next, stepped, same⟩ := Option.bind_eq_some_iff.1 last
      cases same
      obtain ⟨⟨outcome, other⟩, performed, rfl⟩ := Option.map_eq_some_iff.1 stepped
      rcases tokenOf_perform performed clientId with
        ⟨other, kept⟩ | ⟨-, gone⟩ | ⟨connection, fresh, rfl, now⟩
      · obtain ⟨earlier, first, between, start, connection, rfl, observed, unrevoked⟩ :=
          ih ranBefore (kept.symm.trans has)
        refine ⟨earlier, first, between ++ [action], start, connection, by simp, observed, ?_⟩
        intro member
        rcases List.mem_append.1 member with member | member
        · exact unrevoked member
        · exact other (List.mem_singleton.1 member).symm
      · exact absurd (gone.symm.trans has) nofun
      · cases now.symm.trans has
        exact ⟨actions, action, [], before, connection, rfl, ⟨ranBefore, _, performed⟩, nofun⟩

theorem verified_cases {server next : AuthServer} {action : AuthAction} {connection : Nat}
    {clientId : String}
    (performed : server.perform action = some (.verified connection clientId (.ok true), next)) :
    ∃ now call, action = .verify connection now ∧ server.calls connection = some call ∧
      (server.store.verify call.clientId (call.token.getD "") now).1 = .ok true := by
  cases action with
  | call other id given department =>
      simp only [perform] at performed
      split_ifs at performed
      cases performed
  | hasToken other =>
      obtain ⟨call, -, done⟩ := Option.map_eq_some_iff.1 performed
      cases done
  | issue other given now =>
      obtain ⟨call, -, done⟩ := Option.map_eq_some_iff.1 performed
      cases done
  | verify other now =>
      obtain ⟨call, waits, done⟩ := Option.map_eq_some_iff.1 performed
      obtain ⟨same, -⟩ := Prod.mk.inj done
      obtain ⟨rfl, rfl, result⟩ := AuthOutcome.verified.inj same
      exact ⟨now, call, rfl, (waiting_eq_some_iff.1 waits).1, result⟩
  | revoke other => cases performed
  | restart => cases performed

theorem presented_of_verified {store : TokenStore} {call : AuthCall} {row : TokenRow}
    {now : FloatValue} (held : store call.clientId = some row)
    (verified : (store.verify call.clientId (call.token.getD "") now).1 = .ok true) :
    call.token = some row.token.text := by
  obtain ⟨stored, has, texts⟩ := (TokenStore.verify_eq_true_iff ..).1 verified
  rw [TokenStore.tokenOf, held] at has
  cases has
  cases given : call.token with
  | none =>
      rw [given] at texts
      have length := row.token.length
      rw [texts] at length
      cases length
  | some token =>
      rw [given] at texts
      exact congrArg some texts.symm

theorem tokenOf_since_issue {earlier between later : List AuthAction} {first : AuthAction}
    {reached reached' : AuthServer} {connection : Nat} {clientId : String} {token : HexToken}
    (meets : Machine.StepsMeet step IssuesUntaken initial (earlier ++ first :: between ++ later))
    (observed : Observed earlier reached first (.issued connection clientId token))
    (ran : Machine.run step initial (earlier ++ first :: between) = some reached')
    (unrevoked : .revoke clientId ∉ between) :
    reached'.store.tokenOf clientId = some token := by
  obtain ⟨ranEarlier, next, performed⟩ := observed
  obtain ⟨now, call, -, -, -, has⟩ := issued_cases performed
  have stepped : reached.step first = some next := congrArg (Option.map Prod.snd) performed
  rw [Machine.run_append, ranEarlier, Option.bind_some] at ran
  obtain ⟨other, steppedOther, rest⟩ := Option.bind_eq_some_iff.1 ran
  cases stepped.symm.trans steppedOther
  have meetsRest := (meets.first.rest ranEarlier).2 next stepped
  exact tokenOf_kept meetsRest unrevoked rest has

theorem trustOnFirstUse_of_untaken {actions : List AuthAction}
    (meets : Machine.StepsMeet step IssuesUntaken initial actions) : TrustOnFirstUse actions where
  single := by
    rintro earlier first between second later reached connection clientId token reached' connection'
      token' rfl observed ⟨ran, next, performed⟩
    by_contra unrevoked
    have held := tokenOf_since_issue meets observed ran unrevoked
    have free := tokenOf_eq_none_of_issued (meets.rest ran).1 performed
    rw [TokenStore.tokenOf, free] at held
    cases held
  kept := by
    rintro earlier first between later reached connection clientId token reached' now rfl observed
      ran unrevoked
    have held := tokenOf_since_issue meets observed ran unrevoked
    exact (TokenStore.verify_eq_true_iff ..).2 ⟨token, held, rfl⟩
  guarded := by
    rintro earlier action later reached outcome connection call row rfl ⟨ran, next, performed⟩
      accepted called held
    have untaken := (meets.rest ran).1
    unfold accepts at accepted
    split at accepted
    · cases accepted
      have free := tokenOf_eq_none_of_issued untaken performed
      obtain ⟨-, other, -, calledOther, rfl, -⟩ := issued_cases performed
      cases called.symm.trans calledOther
      exact absurd (held.symm.trans free) nofun
    · cases accepted
      obtain ⟨now, other, -, calledOther, verified⟩ := verified_cases performed
      cases called.symm.trans calledOther
      exact presented_of_verified held verified
    · cases accepted

theorem untaken_of_trustOnFirstUse {actions : List AuthAction} {final : AuthServer}
    (ran : Machine.run step initial actions = some final) (trust : TrustOnFirstUse actions) :
    Machine.StepsMeet step IssuesUntaken initial actions := by
  apply Machine.stepsMeet_of_forall
  rintro earlier action later reached rfl ranEarlier
  rw [Machine.run_append, ranEarlier, Option.bind_some] at ran
  obtain ⟨next, stepped, -⟩ := Option.bind_eq_some_iff.1 ran
  obtain ⟨⟨outcome, other⟩, performed, rfl⟩ := Option.map_eq_some_iff.1 stepped
  cases action with
  | issue connection token now =>
      obtain ⟨call, waits, done⟩ := Option.map_eq_some_iff.1 performed
      cases done
      have called := (waiting_eq_some_iff.1 waits).1
      intro other same
      cases called.symm.trans same
      by_contra taken
      -- The token that is there was issued in the run, so the law wants a revocation in between.
      obtain ⟨row, held⟩ := Option.ne_none_iff_exists'.1 taken
      have has : reached.store.tokenOf call.clientId = some row.token := by
        rw [TokenStore.tokenOf, held, Option.map_some]
      obtain ⟨start, first, between, before, holder, rfl, observed, unrevoked⟩ :=
        stored_was_issued earlier ranEarlier has
      exact unrevoked (trust.single start first between _ later before holder _ _ reached
        connection token rfl observed ⟨ranEarlier, _, performed⟩)
  | call | hasToken | verify | revoke | restart => trivial

/-- An interleaving keeps the trust on the first use exactly when each of its issues is for an id
that has no token in the store at that time. -/
theorem trustOnFirstUse_iff {actions : List AuthAction} {final : AuthServer}
    (ran : Machine.run step initial actions = some final) :
    TrustOnFirstUse actions ↔ Machine.StepsMeet step IssuesUntaken initial actions :=
  ⟨untaken_of_trustOnFirstUse ran, trustOnFirstUse_of_untaken⟩

/-! ### Two first connections at once -/

/-- A client connects, is revoked, and connects again. -/
def reissue : List AuthAction :=
  [.call 0 (some "artist") none none, .hasToken 0, .issue 0 (sampleToken 'a' rfl) (.finite 0),
    .revoke "artist",
    .call 1 (some "artist") none none, .hasToken 1, .issue 1 (sampleToken 'b' rfl) (.finite 1)]

theorem trustOnFirstUse_reissue : TrustOnFirstUse reissue :=
  (@trustOnFirstUse_iff reissue _ rfl).2 (by decide)

/-- Both connections look before either is given a token. -/
def twoFirstConnections : List AuthAction :=
  [.call 0 (some "artist") none none, .call 1 (some "artist") none none, .hasToken 0, .hasToken 1,
    .issue 0 (sampleToken 'a' rfl) (.finite 0), .issue 1 (sampleToken 'b' rfl) (.finite 1)]

theorem not_trustOnFirstUse_twoFirstConnections : ¬ TrustOnFirstUse twoFirstConnections := by
  intro trust
  have revoked : AuthAction.revoke "artist" ∈ [] :=
    trust.single (twoFirstConnections.take 4) _ [] _ [] _ 0 "artist" (sampleToken 'a' rfl) _ 1
      (sampleToken 'b' rfl) rfl ⟨rfl, _, rfl⟩ ⟨rfl, _, rfl⟩
  cases revoked

end AuthServer

end UsdConnect
