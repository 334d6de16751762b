import PumpResearch.Library.Runs
import PumpResearch.MarketData.RateLimiter

/-! The two limiters in front of a boost-feed request. Its route slots are spaced, but the backlog
of the global limiter delays one request more than another. -/
namespace PumpResearch.MarketData

open Runs TimeWindows

/-! ### The client -/

/-- A boost-feed request on the wire: its slot of the route limiter, and its wait behind it. -/
structure BoostRequest where
  slot : ℚ
  globalWait : ℚ

def BoostRequest.sentAt (request : BoostRequest) : ℚ := request.slot + request.globalWait

/-- The limiters of a `DexScreenerClient`, the boost requests that sleep behind the route limiter,
each until its slot, and those sent. -/
structure ClientState where
  clock : ℚ
  rateLimiter : AsyncRateLimiter
  boostRateLimiter : AsyncRateLimiter
  sleeping : List ℚ
  sent : List BoostRequest

inductive ClientAction where
  | tokenPairs (now : ℚ)
  | boostFeed (now : ℚ)
  | boostWakes (slot : ℚ)

def ClientAction.time : ClientAction → ℚ
  | .tokenPairs now => now
  | .boostFeed now => now
  | .boostWakes slot => slot

def startClient (rateLimiter boostRateLimiter : AsyncRateLimiter) : ClientState :=
  ⟨0, rateLimiter, boostRateLimiter, [], []⟩

/-- The parts of `_send_batch_request` and `_send_boost_request` between two sleeps. -/
def clientStep (s : ClientState) : ClientAction → ClientState
  | .tokenPairs now => { s with clock := now, rateLimiter := s.rateLimiter.acquire now }
  | .boostFeed now =>
    { s with
      clock := now
      boostRateLimiter := s.boostRateLimiter.acquire now
      sleeping := s.sleeping ++ [s.boostRateLimiter.release now] }
  | .boostWakes slot =>
    if slot ∈ s.sleeping then
      { s with
        clock := slot
        rateLimiter := s.rateLimiter.acquire slot
        sleeping := s.sleeping.erase slot
        sent := s.sent ++ [⟨slot, s.rateLimiter.waitSeconds slot⟩] }
    else s

/-- The clock does not go back, and a sleep ends when it is over. -/
def OnTime (s : ClientState) (a : ClientAction) : Prop :=
  s.clock ≤ a.time ∧ (∀ slot ∈ s.sleeping, a.time ≤ slot) ∧
    ∀ slot, a = .boostWakes slot → slot ∈ s.sleeping

/-! ### The limit on the wire -/

/-- No minute has more boost-feed requests than the route permits. -/
def RouteLimitHolds (requestsPerMinute : Int) (s : ClientState) : Prop :=
  ∀ t, (inWindow 60 t (s.sent.map (·.sentAt)) : Int) ≤ requestsPerMinute

/-- The backlog that a boost request meets at the global limiter is not smaller than that of the
request `requestsPerMinute` places before it, by more than their route slots are over a minute
apart. -/
def BacklogKept (requestsPerMinute : Int) (s : ClientState) (a : ClientAction) : Prop :=
  ∀ slot, a = .boostWakes slot → slot ∈ s.sleeping →
    ∀ (i : Nat) (earlier : BoostRequest), i + requestsPerMinute = s.sent.length →
      s.sent[i]? = some earlier →
      earlier.globalWait - s.rateLimiter.waitSeconds slot ≤ slot - earlier.slot - 60

/-- The requests on the wire are in order, none later than the next global slot. -/
structure ClientInvariant (s : ClientState) : Prop where
  interval : 0 ≤ s.rateLimiter.intervalSeconds
  sorted : (s.sent.map (·.sentAt)).Pairwise fun a b => a ≤ b
  sent_le : ∀ request ∈ s.sent, request.sentAt ≤ s.rateLimiter.nextPermittedAt

theorem ClientInvariant.acquire_le {s : ClientState} (h : ClientInvariant s) (now : ℚ) :
    ∀ request ∈ s.sent, request.sentAt ≤ (s.rateLimiter.acquire now).nextPermittedAt := by
  intro request hrequest
  rw [AsyncRateLimiter.acquire_nextPermittedAt]
  have hle := h.sent_le request hrequest
  have hnext := s.rateLimiter.nextPermittedAt_le_release now
  have hinterval := h.interval
  linarith

theorem ClientInvariant.step {s : ClientState} (h : ClientInvariant s) (a : ClientAction) :
    ClientInvariant (clientStep s a) := by
  cases a with
  | tokenPairs now => exact ⟨h.interval, h.sorted, h.acquire_le now⟩
  | boostFeed now => exact ⟨h.interval, h.sorted, h.sent_le⟩
  | boostWakes slot =>
    rw [clientStep]
    split
    · refine ⟨h.interval, ?_, ?_⟩
      · rw [List.map_append, List.pairwise_append]
        refine ⟨h.sorted, List.pairwise_singleton _ _, ?_⟩
        intro x hx y hy
        obtain ⟨request, hrequest, rfl⟩ := List.mem_map.mp hx
        rw [List.map_singleton, List.mem_singleton] at hy
        rw [hy]
        exact (h.sent_le request hrequest).trans (s.rateLimiter.nextPermittedAt_le_release slot)
      · intro request hrequest
        cases List.mem_append.mp hrequest with
        | inl hold => exact h.acquire_le slot request hold
        | inr hnew =>
          rw [List.mem_singleton.mp hnew, AsyncRateLimiter.acquire_nextPermittedAt]
          have hinterval := h.interval
          exact le_add_of_nonneg_right hinterval
    · exact h

/-- A step keeps the limit on the wire exactly when it keeps the backlog. -/
theorem routeLimitHolds_step_iff {requestsPerMinute : Int} (hpositive : 0 < requestsPerMinute)
    {s : ClientState} (h : ClientInvariant s) (hlimit : RouteLimitHolds requestsPerMinute s)
    (a : ClientAction) :
    RouteLimitHolds requestsPerMinute (clientStep s a) ↔ BacklogKept requestsPerMinute s a := by
  have hiff (s : ClientState) (hs : ClientInvariant s) : RouteLimitHolds requestsPerMinute s ↔
      Apart 60 requestsPerMinute.toNat (s.sent.map (·.sentAt)) := by
    rw [← forall_inWindow_le_iff (by norm_num) hs.sorted, RouteLimitHolds]
    exact forall_congr' fun t => by omega
  cases a with
  | tokenPairs now =>
    refine ⟨?_, fun _ => hlimit⟩
    intro _ slot ha
    cases ha
  | boostFeed now =>
    refine ⟨?_, fun _ => hlimit⟩
    intro _ slot ha
    cases ha
  | boostWakes slot =>
    by_cases hmem : slot ∈ s.sleeping
    · have hsent : (clientStep s (.boostWakes slot)).sent =
          s.sent ++ [⟨slot, s.rateLimiter.waitSeconds slot⟩] := by
        rw [clientStep, if_pos hmem]
      rw [hiff _ (h.step _), hsent, List.map_append, List.map_singleton,
        apart_concat_iff (by omega), List.length_map]
      constructor
      · intro ⟨_, hlast⟩ slot' hslot _ i earlier hi hearlier
        cases hslot
        have hget : (s.sent.map (·.sentAt))[i]? = some earlier.sentAt := by
          rw [List.getElem?_map, hearlier, Option.map_some]
        have hle := hlast i _ (by omega) hget
        rw [BoostRequest.sentAt, BoostRequest.sentAt] at hle
        linarith
      · intro hkept
        refine ⟨(hiff s h).mp hlimit, ?_⟩
        intro i x hi hx
        rw [List.getElem?_map, Option.map_eq_some_iff] at hx
        obtain ⟨earlier, hearlier, rfl⟩ := hx
        have hle := hkept slot rfl hmem i earlier (by omega) hearlier
        rw [BoostRequest.sentAt, BoostRequest.sentAt]
        linarith
    · rw [clientStep, if_neg hmem]
      refine ⟨?_, fun _ => hlimit⟩
      intro _ slot' hslot hmem'
      cases hslot
      exact absurd hmem' hmem

/-- In every run the route limit holds on the wire in every state exactly when every boost request
finds the backlog kept. -/
theorem route_limit_iff {globalPerMinute requestsPerMinute : Int}
    {rateLimiter boostRateLimiter : AsyncRateLimiter}
    (hglobal : AsyncRateLimiter.create globalPerMinute = .ok rateLimiter)
    (hroute : AsyncRateLimiter.create requestsPerMinute = .ok boostRateLimiter)
    (actions : List ClientAction) :
    Always clientStep (RouteLimitHolds requestsPerMinute)
        (startClient rateLimiter boostRateLimiter) actions ↔
      Steps clientStep (BacklogKept requestsPerMinute)
        (startClient rateLimiter boostRateLimiter) actions := by
  obtain ⟨hpositive, rfl⟩ := AsyncRateLimiter.create_eq_ok.mp hglobal
  obtain ⟨hroutePositive, _⟩ := AsyncRateLimiter.create_eq_ok.mp hroute
  have hcast : (0 : ℚ) < globalPerMinute := by exact_mod_cast hpositive
  have hstart : ClientInvariant (startClient ⟨60 / globalPerMinute, 0⟩ boostRateLimiter) :=
    ⟨(by positivity : (0 : ℚ) ≤ 60 / globalPerMinute), .nil, by simp [startClient]⟩
  have hlimit : RouteLimitHolds requestsPerMinute
      (startClient ⟨60 / globalPerMinute, 0⟩ boostRateLimiter) := fun _ => hroutePositive.le
  exact always_iff_steps (I := ClientInvariant) (fun _ a h => h.step a)
    (fun _ a h hs => routeLimitHolds_step_iff hroutePositive h hs a) hstart hlimit actions

/-- Two boost requests a minute apart, with no backlog. -/
theorem idle_client_keeps_limit :
    Always clientStep (RouteLimitHolds 1) (startClient ⟨60 / (2 : Int), 0⟩ ⟨60 / (1 : Int), 0⟩)
      [.boostFeed 0, .boostWakes 0, .boostFeed 60, .boostWakes 60] := by
  have hglobal : AsyncRateLimiter.create 2 = .ok ⟨60 / (2 : Int), 0⟩ := rfl
  have hroute : AsyncRateLimiter.create 1 = .ok ⟨60 / (1 : Int), 0⟩ := rfl
  refine (route_limit_iff hglobal hroute _).mpr ⟨?_, ?_, ?_, ?_, trivial⟩
  · intro slot ha
    cases ha
  · intro slot _ _ i earlier hi _
    simp [startClient, clientStep] at hi
    omega
  · intro slot ha
    cases ha
  · intro slot ha _ i earlier hi hearlier
    cases ha
    norm_num [startClient, clientStep, AsyncRateLimiter.release, AsyncRateLimiter.waitSeconds,
      AsyncRateLimiter.acquire] at hi hearlier ⊢
    rw [hi] at hearlier
    cases hearlier
    norm_num

/-- Three queued token-pair requests hold back a boost request by 90 seconds, and the one a minute
behind it by 60: both are sent within 30 seconds. -/
theorem backlog_breaks_limit :
    Steps clientStep OnTime (startClient ⟨60 / (2 : Int), 0⟩ ⟨60 / (1 : Int), 0⟩)
      [.tokenPairs 0, .tokenPairs 0, .tokenPairs 0, .boostFeed 0, .boostWakes 0, .boostFeed 60,
        .boostWakes 60] ∧
    AsyncRateLimiter.create 2 = .ok ⟨60 / (2 : Int), 0⟩ ∧
    AsyncRateLimiter.create 1 = .ok ⟨60 / (1 : Int), 0⟩ ∧
    ¬ RouteLimitHolds 1 (run clientStep (startClient ⟨60 / (2 : Int), 0⟩ ⟨60 / (1 : Int), 0⟩)
      [.tokenPairs 0, .tokenPairs 0, .tokenPairs 0, .boostFeed 0, .boostWakes 0, .boostFeed 60,
        .boostWakes 60]) := by
  refine ⟨?_, rfl, rfl, ?_⟩
  · norm_num [Steps, OnTime, ClientAction.time, startClient, clientStep, AsyncRateLimiter.release,
      AsyncRateLimiter.waitSeconds, AsyncRateLimiter.acquire]
    simp
  · intro hlimit
    have hminute := hlimit 90
    norm_num [run, startClient, clientStep, AsyncRateLimiter.release, inWindow,
      AsyncRateLimiter.waitSeconds, AsyncRateLimiter.acquire, BoostRequest.sentAt] at hminute

/-! ### Route slots -/

/-- The slots given, in the order in which the requests wake. -/
def ClientState.slots (s : ClientState) : List ℚ := s.sent.map (·.slot) ++ s.sleeping

structure SlotsPaced (interval : ℚ) (s : ClientState) : Prop where
  interval_eq : s.boostRateLimiter.intervalSeconds = interval
  paced : s.slots.Pairwise fun a b => a + interval ≤ b
  slot_le : ∀ slot ∈ s.slots, slot + interval ≤ s.boostRateLimiter.nextPermittedAt

theorem SlotsPaced.step {interval : ℚ} (hpositive : 0 < interval) {s : ClientState}
    (h : SlotsPaced interval s) {a : ClientAction} (ha : OnTime s a) :
    SlotsPaced interval (clientStep s a) := by
  cases a with
  | tokenPairs now => exact ⟨h.interval_eq, h.paced, h.slot_le⟩
  | boostFeed now =>
    have hslots : (clientStep s (.boostFeed now)).slots =
        s.slots ++ [s.boostRateLimiter.release now] := by
      rw [ClientState.slots, ClientState.slots, List.append_assoc]
      rfl
    have hnext := s.boostRateLimiter.nextPermittedAt_le_release now
    have hacquire : (clientStep s (.boostFeed now)).boostRateLimiter.nextPermittedAt =
        s.boostRateLimiter.release now + interval := by
      rw [← h.interval_eq, ← AsyncRateLimiter.acquire_nextPermittedAt]
      rfl
    refine ⟨h.interval_eq, ?_, ?_⟩
    · rw [hslots, List.pairwise_append]
      refine ⟨h.paced, List.pairwise_singleton _ _, ?_⟩
      intro x hx y hy
      rw [List.mem_singleton.mp hy]
      exact (h.slot_le x hx).trans hnext
    · intro slot hslot
      rw [hslots] at hslot
      rw [hacquire]
      cases List.mem_append.mp hslot with
      | inl hold =>
        have hle := h.slot_le slot hold
        linarith
      | inr hnew => rw [List.mem_singleton.mp hnew]
  | boostWakes slot =>
    have hmem := ha.2.2 slot rfl
    have hslots : (clientStep s (.boostWakes slot)).slots = s.slots := by
      have hsleeping := (List.pairwise_append.mp h.paced).2.1
      cases hqueue : s.sleeping with
      | nil =>
        rw [hqueue] at hmem
        cases hmem
      | cons first rest =>
        rw [hqueue] at hsleeping hmem
        have hfirst : slot = first := by
          cases List.mem_cons.mp hmem with
          | inl heq => exact heq
          | inr hrest =>
            have hle := (List.pairwise_cons.mp hsleeping).1 slot hrest
            have hearliest := ha.2.1 first (by rw [hqueue]; exact List.mem_cons_self)
            rw [ClientAction.time] at hearliest
            linarith
        rw [ClientState.slots, ClientState.slots, clientStep, if_pos (hqueue ▸ hmem), hqueue,
          hfirst, List.erase_cons_head, List.map_append, List.append_assoc]
        rfl
    refine ⟨?_, ?_, ?_⟩
    · rw [clientStep, if_pos hmem]
      exact h.interval_eq
    · rw [hslots]
      exact h.paced
    · intro x hx
      rw [hslots] at hx
      rw [clientStep, if_pos hmem]
      exact h.slot_le x hx

/-- The slots of the route limiter keep the route limit in every state. -/
theorem route_slots_paced {requestsPerMinute : Int}
    {rateLimiter boostRateLimiter : AsyncRateLimiter}
    (hroute : AsyncRateLimiter.create requestsPerMinute = .ok boostRateLimiter)
    {actions : List ClientAction}
    (h : Steps clientStep OnTime (startClient rateLimiter boostRateLimiter) actions) :
    Always clientStep (fun s => ∀ t, (inWindow 60 t s.slots : Int) ≤ requestsPerMinute)
      (startClient rateLimiter boostRateLimiter) actions := by
  obtain ⟨hpositive, rfl⟩ := AsyncRateLimiter.create_eq_ok.mp hroute
  have hcast : (0 : ℚ) < requestsPerMinute := by exact_mod_cast hpositive
  have hinterval : (0 : ℚ) < 60 / requestsPerMinute := by positivity
  have hstart : SlotsPaced (60 / requestsPerMinute)
      (startClient rateLimiter ⟨60 / requestsPerMinute, 0⟩) :=
    ⟨rfl, .nil, by simp [startClient, ClientState.slots]⟩
  refine (always_of_invariant (fun s a hs ha => hs.step hinterval ha) h hstart).mono ?_
  intro s hs t
  have hsorted := hs.paced.imp fun hab => (le_add_of_nonneg_right hinterval.le).trans hab
  have hapart := apart_of_gap hs.paced requestsPerMinute.toNat hinterval.le
  rw [AsyncRateLimiter.interval_mul hpositive] at hapart
  have hle := (forall_inWindow_le_iff (by norm_num) hsorted).mpr hapart t
  omega

end PumpResearch.MarketData
