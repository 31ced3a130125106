import Mathlib.Order.Monotone.Basic
import PgBrakes.Ports.PgSession
import PgBrakes.Ports.ProxyConnection

/-!
# The peek for the first eight bytes

`peek_exact` looks at what the socket holds until it holds eight bytes.  A call of `peek`
waits for something to look at; it sees the bytes that have arrived and leaves them there,
and it sees none only where the peer has closed and nothing is left.  So a peer that sends
one to seven bytes and closes is seen with the same bytes by every further call, and the
loop looks again for ever.

## Main results

* `peekLoop_finishes_iff` — the streams on which the loop comes to an end.
-/

namespace PgBrakes.Ports.Proxy

open PgBrakes.Ports.Wire
open PgBrakes.Verified.Effect

variable {σ F : Type}

/-- The loop of `peek_exact` from its `i`-th call of `peek` on, for a number of calls; `seen`
is the number of bytes each call sees. -/
def peekLoop (seen : Nat → Nat) : Nat → Nat → Option (Except ConnError Unit)
  | 0, _ => none
  | fuel + 1, i =>
      if 8 ≤ seen i then some (.ok ())
      else if seen i = 0 then some (.error (.handshake "connection closed during startup"))
      else peekLoop seen fuel (i + 1)

/-- What the calls of `peek` see while this stream arrives. -/
structure Arrives (stream : Bytes) (seen : Nat → Nat) : Prop where
  stays : ∀ i, seen i ≤ seen (i + 1)
  whole : ∃ i, ∀ j, i ≤ j → seen j = min 8 stream.length
  waits : ∀ i, seen i = 0 → stream = []

/-- No call sees more than there is. -/
theorem Arrives.le {stream : Bytes} {seen : Nat → Nat} (h : Arrives stream seen) (i : Nat) :
    seen i ≤ min 8 stream.length := by
  obtain ⟨n, hn⟩ := h.whole
  have hlater : seen i ≤ seen (i + n) := monotone_nat_of_le_succ h.stays (by omega)
  rw [hn (i + n) (by omega)] at hlater
  exact hlater

/-- Calls that see a part of the eight bytes only are repeated. -/
theorem peekLoop_skips {seen : Nat → Nat} {i : Nat} (hsome : 0 < seen i) (hfew : seen i < 8)
    (fuel : Nat) : peekLoop seen (fuel + 1) i = peekLoop seen fuel (i + 1) := by
  rw [peekLoop, if_neg (by omega), if_neg (by omega)]

/-- Where a call sees eight bytes, the loop comes to an end by then. -/
theorem peekLoop_reaches {seen : Nat → Nat} (hsome : ∀ i, 0 < seen i) {n : Nat}
    (hn : 8 ≤ seen n) : ∀ i, i ≤ n → peekLoop seen (n - i + 1) i = some (.ok ()) := by
  intro i hi
  induction hk : n - i generalizing i with
  | zero =>
      obtain rfl : i = n := by omega
      rw [peekLoop, if_pos hn]
  | succ k ih =>
      by_cases hnow : 8 ≤ seen i
      · rw [peekLoop, if_pos hnow]
      · rw [peekLoop_skips (hsome i) (by omega)]
        exact ih (i + 1) (by omega) (by omega)

theorem peekLoop_spins {seen : Nat → Nat} (hsome : ∀ i, 0 < seen i) (hfew : ∀ i, seen i < 8) :
    ∀ fuel i, peekLoop seen fuel i = none := by
  intro fuel
  induction fuel with
  | zero =>
      intro i
      rfl
  | succ fuel ih =>
      intro i
      rw [peekLoop_skips (hsome i) (hfew i)]
      exact ih (i + 1)

/-- The loop comes to an end where nothing is sent or eight bytes are, and then as
`peekExact` says.  A peer that closes behind one to seven bytes is looked at for ever. -/
theorem peekLoop_finishes_iff {s : Logged (Link σ) (ConnEvent σ F)} {seen : Nat → Nat}
    (h : Arrives s.world.stream seen) :
    ((∃ fuel r, peekLoop seen fuel 0 = some r) ↔
        s.world.stream = [] ∨ 8 ≤ s.world.stream.length) ∧
      ∀ fuel r, peekLoop seen fuel 0 = some r →
        ((peekExact : Conn σ F Bytes) s).1.map (fun _ => ()) = r := by
  by_cases hempty : s.world.stream = []
  · have hzero : seen 0 = 0 := by
      have hle := h.le 0
      rw [hempty] at hle
      simpa using hle
    have hfirst (fuel : Nat) : peekLoop seen (fuel + 1) 0 =
        some (.error (.handshake "connection closed during startup")) := by
      rw [peekLoop, if_neg (by omega), if_pos hzero]
    refine ⟨⟨fun _ => .inl hempty, fun _ => ⟨1, _, hfirst 0⟩⟩, fun fuel r hr => ?_⟩
    cases fuel with
    | zero => cases hr
    | succ fuel =>
        rw [hfirst] at hr
        cases hr
        rw [peekExact, if_neg (by rw [hempty]; decide), if_pos hempty]
        rfl
  have hsome (i : Nat) : 0 < seen i := Nat.pos_of_ne_zero fun hi => hempty (h.waits i hi)
  by_cases height : 8 ≤ s.world.stream.length
  · obtain ⟨n, hn⟩ := h.whole
    have hsees : 8 ≤ seen n := by
      rw [hn n (Nat.le_refl n)]
      omega
    refine ⟨⟨fun _ => .inr height, fun _ => ⟨_, _, peekLoop_reaches hsome hsees 0 (Nat.zero_le n)⟩⟩,
      fun fuel r hr => ?_⟩
    rw [peekExact, if_pos height]
    show Except.ok () = r
    have hok : ∀ fuel i, peekLoop seen fuel i = some r → r = .ok () := by
      intro fuel
      induction fuel with
      | zero =>
          intro i hi
          cases hi
      | succ fuel ih =>
          intro i hi
          rw [peekLoop] at hi
          split at hi
          · exact (Option.some.inj hi).symm
          · rw [if_neg (by have := hsome i; omega)] at hi
            exact ih (i + 1) hi
    exact (hok fuel 0 hr).symm
  · have hfew (i : Nat) : seen i < 8 := by
      have hle := h.le i
      omega
    have hnever := peekLoop_spins hsome hfew
    refine ⟨⟨?_, ?_⟩, fun fuel r hr => ?_⟩
    · rintro ⟨fuel, r, hr⟩
      rw [hnever] at hr
      cases hr
    · rintro (hnil | hlong)
      · exact absurd hnil hempty
      · exact absurd hlong height
    · rw [hnever] at hr
      cases hr

/-- A peer that sends one byte and closes. -/
theorem peekLoop_spins_small : ¬ ∃ fuel r, peekLoop (fun _ => 1) fuel 0 = some r := by
  have harrives : Arrives [0x50] fun _ => 1 :=
    ⟨fun _ => Nat.le_refl 1, ⟨0, fun _ _ => rfl⟩, fun _ h => absurd h (by decide)⟩
  intro h
  rcases (@peekLoop_finishes_iff Unit Nat (Link.start Config.small [0x50] ()) _ harrives).1.mp h
    with hnil | hlong
  · cases hnil
  · exact absurd hlong (by decide)

end PgBrakes.Ports.Proxy
