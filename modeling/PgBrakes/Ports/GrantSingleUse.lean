import Mathlib.Data.Set.Function
import PgBrakes.Verified.History
import PgBrakes.Ports.GuardedApplyAtomicity
import PgBrakes.Ports.GrantedApply

/-!
# A grant opens at most one transaction

Any number of grant-gated applies share one nonce store: replayed tokens,
altered ones, expired ones, in any order, over any connections and clocks.  The
nonce is consumed after every other check and before the engine is reached, so a
nonce that has reached a transaction is in the store for the rest of the run,
and a call that is refused leaves the store alone.

## Main results

* `history_safe` — over every sequence of calls, each nonce reaches a
  transaction at most once, a transaction is only opened behind a verified,
  matching, unexpired grant, and a refusal of the gate touches nothing.
* `binding_exact` — the hashed bytes determine every bound field, so an accepted grant
  was signed for exactly the live request.
-/

namespace PgBrakes.Ports.GrantSingleUse

open PgBrakes.Verified.Effect
open PgBrakes.Ports.KeyChecksum
open PgBrakes.Ports.TypedInverse
open PgBrakes.Ports.BlastRecord
open PgBrakes.Ports.GuardedApply
open PgBrakes.Ports.GuardedApplyRun
open PgBrakes.Ports.SqlAst
open PgBrakes.Ports.Grant
open PgBrakes.Ports.GrantedApply

variable {ω : Type}

/-- What one call did: its arguments, the store around it, its result and its
calls. -/
structure CallRecord (ω : Type) where
  call : GrantCall ω
  before : NonceStore
  result : Except GrantedApplyError (AppliedWrite × BridgedApplyConfig)
  after : NonceStore
  log : List ApplyCall

namespace CallRecord

def nonce (r : CallRecord ω) : String := r.call.grant.binding.nonce

/-- The call asked the connection for a transaction. -/
def reachesBegin (r : CallRecord ω) : Prop := ∃ c ∈ r.log, c.isBeginCall

/-- The call asked the connection for a restore point. -/
def reachesRestorePoint (r : CallRecord ω) : Prop :=
  ∃ label answer, ApplyCall.createRestorePoint label answer ∈ r.log

end CallRecord

/-- One call on the shared store and world. -/
def gateStep [Sha256] [Ed25519] [Sql] (c : GrantCall ω) (s : NonceStore × ω) :
    CallRecord ω × (NonceStore × ω) :=
  let out := c.run ⟨s.1, ⟨s.2, []⟩⟩
  ( { call := c, before := s.1, result := out.1, after := out.2.nonces
      log := out.2.calls.log }
  , (out.2.nonces, out.2.calls.world) )

/-- The records of a sequence of calls. -/
def callHistory [Sha256] [Ed25519] [Sql] (calls : List (GrantCall ω)) (nonces : NonceStore)
    (w : ω) : List (CallRecord ω) :=
  (PgBrakes.Verified.History.run gateStep calls (nonces, w)).1

/-- The grant of a call verified: its signature, its fields against the live
ones, and the first reading of the clock against its expiry. -/
structure Verified [Sha256] [Ed25519] (r : CallRecord ω) : Prop where
  signature : r.call.grant.verifySignature r.call.verifyingKey = .ok ()
  live : r.call.liveBinding = r.call.grant.binding
  clock : ∃ pkCol now rest,
    r.log = .selfDeterminedPkColumn r.call.relation pkCol :: .clockRead now :: rest ∧
      now < r.call.grant.binding.expiryUnixMillis

/-- A call that touched neither the database nor the store. -/
structure Untouched (r : CallRecord ω) : Prop where
  noBegin : ¬ r.reachesBegin
  noRestorePoint : ¬ r.reachesRestorePoint
  nonces : r.after = r.before

/-- What the gate guarantees of a history of calls. -/
structure SafeHistory [Sha256] [Ed25519] (history : List (CallRecord ω)) : Prop where
  singleUse : history.Pairwise fun a b => a.reachesBegin → b.reachesBegin → a.nonce ≠ b.nonce
  verified : ∀ r ∈ history, r.reachesBegin → Verified r
  failClosed : ∀ r ∈ history, ∀ e, r.result = .error e →
    ¬ Verified r ∨ e.isApply = false → Untouched r

/-- The strings and numbers of a call are within the bounds of the source's
types. -/
def FitsCall (c : GrantCall ω) : Prop := c.grant.binding.Fits ∧ c.liveBinding.Fits

/-- The byte streams whose hashes a sequence of calls compares. -/
def boundStreams (calls : List (GrantCall ω)) : Set (List UInt8) :=
  { bytes | ∃ c ∈ calls, bytes = c.liveBinding.encode ∨ bytes = c.grant.binding.encode }

/-- Equal hashes of one call mean equal streams. -/
def ToldApart [Sha256] (c : GrantCall ω) : Prop :=
  c.liveBinding.bindingHash = c.grant.binding.bindingHash →
    c.liveBinding.encode = c.grant.binding.encode

private theorem toldApart_of_injOn [Sha256] {calls : List (GrantCall ω)}
    (hhash : Set.InjOn Sha256.digest (boundStreams calls)) {c : GrantCall ω} (hc : c ∈ calls) :
    ToldApart c := by
  intro heq
  have hlive : c.liveBinding.encode ∈ boundStreams calls := ⟨c, hc, .inl rfl⟩
  have hsigned : c.grant.binding.encode ∈ boundStreams calls := ⟨c, hc, .inr rfl⟩
  exact hhash hlive hsigned heq

/-! ## One call -/

/-- A refused call touches nothing. -/
private theorem untouched_of_refused [Sha256] [Ed25519] [Sql] {c : GrantCall ω}
    {s : NonceStore × ω} {s' : GateState ω} {e : GrantedApplyError}
    (h : Refused c ⟨s.1, ⟨s.2, []⟩⟩ s' e) : Untouched (gateStep c s).1 := by
  have hlog : (gateStep c s).1.log = s'.calls.log := by
    simp only [gateStep, h.run]
  have hshape : ∀ call ∈ (gateStep c s).1.log,
      (∃ pkCol, call = .selfDeterminedPkColumn c.relation pkCol) ∨
        ∃ now, call = .clockRead now := by
    intro call hcall
    rw [hlog] at hcall
    rcases h.calls with hcalls | hcalls
    · rw [hcalls] at hcall
      simp only [afterPkColumn, List.nil_append, List.mem_singleton] at hcall
      exact .inl ⟨_, hcall⟩
    · rw [hcalls] at hcall
      simp only [afterClock, afterPkColumn, List.nil_append, List.mem_append,
        List.mem_singleton] at hcall
      rcases hcall with hcall | hcall
      · exact .inl ⟨_, hcall⟩
      · exact .inr ⟨_, hcall⟩
  refine ⟨?_, ?_, ?_⟩
  · rintro ⟨call, hcall, hbegin⟩
    rcases hshape call hcall with ⟨pkCol, rfl⟩ | ⟨now, rfl⟩
    · cases hbegin
    · cases hbegin
  · rintro ⟨label, answer, hcall⟩
    rcases hshape _ hcall with ⟨pkCol, heq⟩ | ⟨now, heq⟩
    · cases heq
    · cases heq
  · simp only [gateStep, h.run]
    exact h.nonces

/-- A granted call is verified and consumes its nonce. -/
private theorem verified_of_granted [Sha256] [Ed25519] [Sql]
    {c : GrantCall ω} (happart : ToldApart c) (hfits : FitsCall c)
    {s : NonceStore × ω} (h : Granted c ⟨s.1, ⟨s.2, []⟩⟩) :
    Verified (gateStep c s).1 ∧ c.grant.binding.nonce ∈ (gateStep c s).2.1.used := by
  have hlive : c.liveBinding = c.grant.binding :=
    GrantBinding.encode_injective hfits.2 hfits.1 (happart h.binding)
  have hclock : ∃ rest, (gateStep c s).1.log =
      .selfDeterminedPkColumn c.relation (c.conn.selfDeterminedPkColumn c.relation s.2).1 ::
        .clockRead (c.clock.nowUnixMillis
          (afterPkColumn c ⟨s.1, ⟨s.2, []⟩⟩).calls.world).1 :: rest := by
    obtain ⟨rest, hrest⟩ := run_log_extends c.invocation
      (afterClock c.clock (afterPkColumn c ⟨s.1, ⟨s.2, []⟩⟩)).calls
    refine ⟨rest, ?_⟩
    simp only [gateStep, h.run, hrest]
    rfl
  constructor
  · obtain ⟨rest, hlog⟩ := hclock
    exact ⟨h.signature, hlive, _, _, rest, hlog, h.expiry⟩
  · simp only [gateStep, h.run]
    exact Finset.mem_insert_self _ _

/-- The error of a granted call is the engine's. -/
private theorem isApply_of_granted [Sha256] [Ed25519] [Sql] {c : GrantCall ω}
    {s : NonceStore × ω} (h : Granted c ⟨s.1, ⟨s.2, []⟩⟩) {e : GrantedApplyError}
    (he : (gateStep c s).1.result = .error e) : e.isApply = true := by
  simp only [gateStep, h.run] at he
  rcases hr : (c.invocation.run
      (afterClock c.clock (afterPkColumn c ⟨s.1, ⟨s.2, []⟩⟩)).calls).1 with e' | a
  · rw [hr] at he
    cases he
    rfl
  · rw [hr] at he
    cases he

/-- A call never takes a nonce out of the store. -/
private theorem used_mono [Sha256] [Ed25519] [Sql] (c : GrantCall ω) (s : NonceStore × ω) :
    s.1.used ⊆ (gateStep c s).2.1.used := by
  rcases run_granted_cases c ⟨s.1, ⟨s.2, []⟩⟩ with ⟨e, s', h⟩ | h
  · have hnonces := h.nonces
    simp only [gateStep, h.run]
    rw [hnonces]
  · simp only [gateStep, h.run]
    exact Finset.subset_insert _ _

/-! ## Whole histories -/

/-- Each record of a history, and how it stands to the ones before it. -/
def SafeStep [Sha256] [Ed25519] (before : List (CallRecord ω)) (r : CallRecord ω) : Prop :=
  (∀ r' ∈ before, r'.reachesBegin → r.reachesBegin → r'.nonce ≠ r.nonce) ∧
    (r.reachesBegin → Verified r) ∧
    ∀ e, r.result = .error e → ¬ Verified r ∨ e.isApply = false → Untouched r

/-- What has reached a transaction is in the store. -/
def Consumed (history : List (CallRecord ω)) (s : NonceStore × ω) : Prop :=
  ∀ r ∈ history, r.reachesBegin → r.nonce ∈ s.1.used

/-- One call keeps the store ahead of the history and is safe behind it. -/
private theorem gateStep_safe [Sha256] [Ed25519] [Sql] {history : List (CallRecord ω)}
    {s : NonceStore × ω} {c : GrantCall ω} (happart : ToldApart c) (hfits : FitsCall c)
    (hinv : Consumed history s) :
    SafeStep history (gateStep c s).1 ∧
      Consumed (history ++ [(gateStep c s).1]) (gateStep c s).2 := by
  have hkeep : ∀ r ∈ history, r.reachesBegin → r.nonce ∈ (gateStep c s).2.1.used :=
    fun r hr hbegin => used_mono c s (hinv r hr hbegin)
  have hnonce : (gateStep c s).1.nonce = c.grant.binding.nonce := rfl
  rcases run_granted_cases c ⟨s.1, ⟨s.2, []⟩⟩ with ⟨e, s', h⟩ | h
  · have huntouched := untouched_of_refused h
    refine ⟨⟨?_, ?_, fun _ _ _ => huntouched⟩, ?_⟩
    · intro r' _ _ hbegin
      exact absurd hbegin huntouched.noBegin
    · intro hbegin
      exact absurd hbegin huntouched.noBegin
    · intro r hr hbegin
      rcases List.mem_append.mp hr with hr | hr
      · exact hkeep r hr hbegin
      · rw [List.mem_singleton.mp hr] at hbegin
        exact absurd hbegin huntouched.noBegin
  · have hgranted := verified_of_granted happart hfits h
    refine ⟨⟨?_, fun _ => hgranted.1, ?_⟩, ?_⟩
    · intro r' hr' hbegin' _ heq
      have hmem := hinv r' hr' hbegin'
      rw [heq, hnonce] at hmem
      exact h.fresh hmem
    · intro e he hwhy
      have hengine := isApply_of_granted h he
      rcases hwhy with hunverified | hgate
      · exact absurd hgranted.1 hunverified
      · rw [hengine] at hgate
        cases hgate
    · intro r hr hbegin
      rcases List.mem_append.mp hr with hr | hr
      · exact hkeep r hr hbegin
      · rw [List.mem_singleton.mp hr, hnonce]
        exact hgranted.2

/-- Over every sequence of calls, the gate is single-use and fail-closed. -/
theorem history_safe [Sha256] [Ed25519] [Sql] (calls : List (GrantCall ω))
    (hhash : Set.InjOn Sha256.digest (boundStreams calls)) (hfits : ∀ c ∈ calls, FitsCall c)
    (nonces : NonceStore) (w : ω) : SafeHistory (callHistory calls nonces w) := by
  have hok : ∀ c ∈ calls, ToldApart c ∧ FitsCall c :=
    fun c hc => ⟨toldApart_of_injOn hhash hc, hfits c hc⟩
  have hinit : Consumed ([] : List (CallRecord ω)) (nonces, w) := by
    intro r hr
    cases hr
  have hsafe : PgBrakes.Verified.History.EveryStep SafeStep (callHistory calls nonces w) :=
    (PgBrakes.Verified.History.run_rule _ Consumed (fun c => ToldApart c ∧ FitsCall c) SafeStep
      (fun _ _ _ hc hinv => gateStep_safe hc.1 hc.2 hinv) hinit hok).2
  constructor
  · rw [← PgBrakes.Verified.History.everyStep_iff_pairwise]
    intro before r after heq
    exact (hsafe before r after heq).1
  · intro r hr
    obtain ⟨before, after, heq⟩ := List.append_of_mem hr
    exact (hsafe before r after heq).2.1
  · intro r hr
    obtain ⟨before, after, heq⟩ := List.append_of_mem hr
    exact (hsafe before r after heq).2.2

/-! ## A replayed token -/

/-- A signature scheme on 32-byte messages in which the two keys of a pair have
the same bytes. -/
@[reducible] def sharedBytes : Ed25519 where
  sign key message := message ++ key.bytes
  verifyingKey key := ⟨key.bytes⟩
  verifyStrict key message signature := signature == message ++ key.bytes

/-- The approver's key. -/
def approverKey : SigningKey := ⟨List.replicate 32 7⟩

/-- The write of `plainForward`, as its grant binds it. -/
def accountsBinding : GrantBinding :=
  { statementText := "update public.accounts set owner = 'x' where id in (1, 2)"
    normalizedParams := []
    role := "app"
    sessionId := "agent"
    proposalId := "p1"
    dryRunLsn := "0/1"
    cap := { maxRows := 2, maxWalBytes := 0 }
    nonce := "n1"
    expiryUnixMillis := 1000 }

/-- Two updated rows. -/
def plainForward : ForwardResult :=
  .new
    [ { pk := .single (.int 1), beforeImage := [("owner", .text "a")] }
    , { pk := .single (.int 2), beforeImage := [("owner", .text "b")] } ]

/-- The apply under that grant. -/
def accountsCall [Sha256] [Ed25519] : GrantCall Unit :=
  { policy := { cloneProvider := .dblab, pitrEnabled := false }
    grant := .sign accountsBinding approverKey
    live :=
      { statementText := accountsBinding.statementText
        normalizedParams := []
        role := "app"
        sessionId := "agent"
        proposalId := "p1" }
    verifyingKey := Ed25519.verifyingKey approverKey
    kind := .update
    relation := "public.accounts"
    blastRadius := GuardedApplyAtomicity.twoRowRadius
    conn := .scripted plainForward [⟨"public.accounts", 0, 2, 0⟩]
    barrier := .noop
    clock := ⟨fun w => (0, w), fun w => (0, w)⟩ }

theorem accountsBinding_fits : accountsBinding.Fits := by
  constructor <;> decide

/-- Presented twice, the token opens one transaction. -/
theorem history_safe_replayed :
    letI := Sha256.standard
    letI := sharedBytes
    letI := Sql.knowing []
    let history := callHistory [accountsCall, accountsCall] .new ()
    SafeHistory history ∧
      history.map (fun r => r.log.countP (·.isBeginCall)) = [1, 0] := by
  let _ := Sha256.standard
  let _ := sharedBytes
  let _ := Sql.knowing []
  intro history
  have hsame : accountsCall.liveBinding = accountsCall.grant.binding := rfl
  constructor
  · apply history_safe
    · have hone : boundStreams [accountsCall, accountsCall] ⊆ {accountsBinding.encode} := by
        rintro bytes ⟨c, hc, heq⟩
        have hcall : c = accountsCall := by simpa using hc
        subst hcall
        rcases heq with heq | heq
        · rw [heq, hsame]
          rfl
        · rw [heq]
          rfl
      exact (Set.injOn_singleton _ _).mono hone
    · intro c hc
      have hcall : c = accountsCall := by simpa using hc
      subst hcall
      exact ⟨accountsBinding_fits, accountsBinding_fits⟩
  · decide +kernel

/-! ## The bound fields -/

/-- Two bindings with the same bytes are equal field for field.  With a hash that has
no collision between the two streams, a grant is accepted for a live binding only when
that is the signed one. -/
theorem binding_exact [Sha256] [Ed25519] {signed live : GrantBinding} (hsigned : signed.Fits)
    (hlive : live.Fits) :
    (live.encode = signed.encode → live = signed) ∧
      (Set.InjOn Sha256.digest {live.encode, signed.encode} →
        ∀ (token : GrantToken) (key : VerifyingKey) (clock : Clock ω) (s s' : GateState ω),
          token.binding = signed → verifyForApply token live key clock s = (.ok (), s') →
          live = signed) := by
  have hinjective : live.encode = signed.encode → live = signed :=
    GrantBinding.encode_injective hlive hsigned
  refine ⟨hinjective, ?_⟩
  intro hcollision token key clock s s' htoken hok
  obtain ⟨-, hhash, -⟩ := verifyForApply_ok hok
  rw [htoken] at hhash
  exact hinjective (hcollision (by simp) (by simp) hhash)

/-- The token for the write of `accountsCall`, presented with the fields it was signed
for. -/
theorem binding_exact_accounts :
    letI := Sha256.standard
    letI := sharedBytes
    (verifyForApply (.sign accountsBinding approverKey) accountsCall.liveBinding
        (Ed25519.verifyingKey approverKey) accountsCall.clock ⟨.new, ⟨(), []⟩⟩).1 = .ok () ∧
      accountsCall.liveBinding = accountsBinding := by
  let _ := Sha256.standard
  let _ := sharedBytes
  have hlive : accountsCall.liveBinding.Fits := accountsBinding_fits
  have haccepted : (verifyForApply (.sign accountsBinding approverKey) accountsCall.liveBinding
      (Ed25519.verifyingKey approverKey) accountsCall.clock ⟨.new, ⟨(), []⟩⟩).1 = .ok () := by
    decide +kernel
  have hinj : Set.InjOn Sha256.digest
      {accountsCall.liveBinding.encode, accountsBinding.encode} := by
    have hone : ({accountsCall.liveBinding.encode, accountsBinding.encode} : Set (List UInt8)) =
        {accountsBinding.encode} := Set.pair_eq_singleton _
    rw [hone]
    exact Set.injOn_singleton _ _
  have hpair : ∀ out : Except GrantError Unit × GateState Unit, out.1 = .ok () →
      out = (.ok (), out.2) := by
    rintro ⟨result, s'⟩ h
    cases h
    rfl
  exact ⟨haccepted, (binding_exact accountsBinding_fits hlive).2 hinj
    (.sign accountsBinding approverKey) (Ed25519.verifyingKey approverKey) accountsCall.clock
    ⟨.new, ⟨(), []⟩⟩ _ rfl (hpair _ haccepted)⟩

end PgBrakes.Ports.GrantSingleUse
