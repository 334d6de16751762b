import PumpResearch.Library.TimeWindows

/-! Request pacing. A limiter reserves the next free slot for each call, so slots never come closer
than its interval. -/
namespace PumpResearch.MarketData

open TimeWindows

/-- The state of an `AsyncRateLimiter` behind its lock. -/
structure AsyncRateLimiter where
  intervalSeconds : ℚ
  nextPermittedAt : ℚ

namespace AsyncRateLimiter

/-- `__init__`. -/
def create (requestsPerMinute : Int) : Except String AsyncRateLimiter :=
  if requestsPerMinute ≤ 0 then .error "requests_per_minute must be positive"
  else .ok ⟨60 / requestsPerMinute, 0⟩

/-- The wait of `acquire` at a clock reading. -/
def waitSeconds (limiter : AsyncRateLimiter) (now : ℚ) : ℚ := max 0 (limiter.nextPermittedAt - now)

/-- `acquire` at a clock reading, without the sleep: the limiter it leaves. -/
def acquire (limiter : AsyncRateLimiter) (now : ℚ) : AsyncRateLimiter :=
  { limiter with
    nextPermittedAt := max now limiter.nextPermittedAt + limiter.intervalSeconds }

/-- When a call at a clock reading returns. -/
def release (limiter : AsyncRateLimiter) (now : ℚ) : ℚ := now + limiter.waitSeconds now

/-- The calls in lock order, each with the limiter it finds. -/
def releases (limiter : AsyncRateLimiter) : List ℚ → List ℚ
  | [] => []
  | now :: rest => limiter.release now :: (limiter.acquire now).releases rest

theorem release_eq (limiter : AsyncRateLimiter) (now : ℚ) :
    limiter.release now = max now limiter.nextPermittedAt := by
  rw [release, waitSeconds, ← max_add_add_left, add_zero, add_sub_cancel]

@[simp] theorem acquire_intervalSeconds (limiter : AsyncRateLimiter) (now : ℚ) :
    (limiter.acquire now).intervalSeconds = limiter.intervalSeconds := rfl

/-- The next slot is an interval after the one given. -/
theorem acquire_nextPermittedAt (limiter : AsyncRateLimiter) (now : ℚ) :
    (limiter.acquire now).nextPermittedAt = limiter.release now + limiter.intervalSeconds := by
  rw [release_eq, acquire]

theorem nextPermittedAt_le_release (limiter : AsyncRateLimiter) (now : ℚ) :
    limiter.nextPermittedAt ≤ limiter.release now := by
  rw [release_eq]
  exact le_max_right _ _

/-- No release comes before the next permitted time. -/
theorem le_of_mem_releases (limiter : AsyncRateLimiter) (hinterval : 0 ≤ limiter.intervalSeconds)
    {readings : List ℚ} {x : ℚ} (h : x ∈ limiter.releases readings) :
    limiter.nextPermittedAt ≤ x := by
  induction readings generalizing limiter with
  | nil => cases h
  | cons now rest ih =>
    have hfirst := limiter.nextPermittedAt_le_release now
    cases List.mem_cons.mp h with
    | inl heq => exact heq ▸ hfirst
    | inr hrest =>
      have hnext := ih (limiter.acquire now) hinterval hrest
      rw [acquire_nextPermittedAt] at hnext
      linarith

/-- Releases keep the interval. -/
theorem releases_pairwise (limiter : AsyncRateLimiter) (hinterval : 0 ≤ limiter.intervalSeconds)
    (readings : List ℚ) :
    (limiter.releases readings).Pairwise fun a b => a + limiter.intervalSeconds ≤ b := by
  induction readings generalizing limiter with
  | nil => exact .nil
  | cons now rest ih =>
    refine List.pairwise_cons.mpr ⟨?_, ih (limiter.acquire now) hinterval⟩
    intro x hx
    rw [← acquire_nextPermittedAt]
    exact le_of_mem_releases (limiter.acquire now) hinterval hx

/-- The earliest time that is late enough for its reading, for the limiter's start and for the
releases before it. -/
def Earliest (start interval : ℚ) (before : List ℚ) (reading x : ℚ) : Prop :=
  IsLeast {y | reading ≤ y ∧ start ≤ y ∧ ∀ z ∈ before, z + interval ≤ y} x

/-- Each release is the earliest one. -/
theorem earliest_of_releases (limiter : AsyncRateLimiter) (hinterval : 0 ≤ limiter.intervalSeconds)
    {readings : List ℚ} {i : Nat} {reading x : ℚ} (hreading : readings[i]? = some reading)
    (hx : (limiter.releases readings)[i]? = some x) :
    Earliest limiter.nextPermittedAt limiter.intervalSeconds
      ((limiter.releases readings).take i) reading x := by
  induction readings generalizing limiter i with
  | nil => cases hreading
  | cons now rest ih =>
    cases i with
    | zero =>
      cases hreading
      cases hx
      rw [release_eq]
      refine ⟨⟨le_max_left _ _, le_max_right _ _, by simp⟩, ?_⟩
      intro y hy
      exact max_le hy.1 hy.2.1
    | succ i =>
      obtain ⟨⟨hle, hstart, hbefore⟩, hleast⟩ :=
        ih (limiter.acquire now) hinterval hreading hx
      rw [acquire_nextPermittedAt] at hstart
      have hfirst := limiter.nextPermittedAt_le_release now
      constructor
      · refine ⟨hle, by linarith, ?_⟩
        intro z hz
        rw [releases, List.take_succ_cons] at hz
        cases List.mem_cons.mp hz with
        | inl heq => exact heq ▸ hstart
        | inr hrest => exact hbefore z hrest
      · intro y hy
        obtain ⟨hready, _, hspaced⟩ := hy
        rw [releases, List.take_succ_cons] at hspaced
        refine hleast ⟨hready, ?_, fun z hz => hspaced z (List.mem_cons_of_mem _ hz)⟩
        rw [acquire_nextPermittedAt]
        exact hspaced _ List.mem_cons_self

theorem create_eq_ok {requestsPerMinute : Int} {limiter : AsyncRateLimiter} :
    create requestsPerMinute = .ok limiter ↔
      0 < requestsPerMinute ∧ limiter = ⟨60 / requestsPerMinute, 0⟩ := by
  rw [create]
  split
  · next h =>
    constructor
    · intro herror
      cases herror
    · intro hok
      omega
  · next h =>
    constructor
    · intro hok
      exact ⟨by omega, (Except.ok.inj hok).symm⟩
    · intro hok
      rw [hok.2]

/-- A minute is the interval as often as requests are permitted in it. -/
theorem interval_mul {requestsPerMinute : Int} (h : 0 < requestsPerMinute) :
    requestsPerMinute.toNat • (60 / requestsPerMinute : ℚ) = 60 := by
  have hcast : ((requestsPerMinute.toNat : Nat) : ℚ) = requestsPerMinute := by
    have hnat : ((requestsPerMinute.toNat : Nat) : Int) = requestsPerMinute := Int.toNat_of_nonneg h.le
    exact_mod_cast hnat
  have hne : (requestsPerMinute : ℚ) ≠ 0 := by exact_mod_cast h.ne'
  rw [nsmul_eq_mul, hcast, mul_div_cancel₀ _ hne]

/-- Releases keep the interval, no minute has more of them than permitted, and each is the earliest
such time from its reading and the clock's zero on. -/
theorem paced_releases {requestsPerMinute : Int} {limiter : AsyncRateLimiter}
    (h : create requestsPerMinute = .ok limiter) (readings : List ℚ) :
    ((limiter.releases readings).Pairwise fun a b => a + 60 / (requestsPerMinute : ℚ) ≤ b) ∧
    (∀ t, (inWindow 60 t (limiter.releases readings) : Int) ≤ requestsPerMinute) ∧
    (∀ i reading x, readings[i]? = some reading → (limiter.releases readings)[i]? = some x →
      Earliest 0 (60 / requestsPerMinute) ((limiter.releases readings).take i) reading x) := by
  obtain ⟨hpositive, rfl⟩ := create_eq_ok.mp h
  have hcast : (0 : ℚ) < requestsPerMinute := by exact_mod_cast hpositive
  have hinterval : (0 : ℚ) < 60 / requestsPerMinute := by positivity
  have hpairwise := releases_pairwise ⟨60 / requestsPerMinute, 0⟩ hinterval.le readings
  have hsorted := hpairwise.imp fun hab => (le_add_of_nonneg_right hinterval.le).trans hab
  have hapart := apart_of_gap hpairwise requestsPerMinute.toNat hinterval.le
  rw [interval_mul hpositive] at hapart
  refine ⟨hpairwise, ?_, fun i reading x hreading hx =>
    earliest_of_releases ⟨60 / requestsPerMinute, 0⟩ hinterval.le hreading hx⟩
  intro t
  have hle := (forall_inWindow_le_iff (by norm_num) hsorted).mpr hapart t
  omega

/-- Two requests a minute, asked for in a burst and once after a pause. -/
theorem paced_burst :
    (([0, 30, 100] : List ℚ).Pairwise fun a b => a + 60 / ((2 : Int) : ℚ) ≤ b) ∧
    (∀ t, (inWindow 60 t ([0, 30, 100] : List ℚ) : Int) ≤ 2) ∧
    (∀ i reading x, ([0, 0, 100] : List ℚ)[i]? = some reading →
      ([0, 30, 100] : List ℚ)[i]? = some x →
      Earliest 0 (60 / (2 : Int)) (([0, 30, 100] : List ℚ).take i) reading x) := by
  have hcreate : create 2 = .ok ⟨60 / (2 : Int), 0⟩ := rfl
  have hreleases : (⟨60 / (2 : Int), 0⟩ : AsyncRateLimiter).releases [0, 0, 100] = [0, 30, 100] := by
    norm_num [releases, release, waitSeconds, acquire]
  have hpaced := paced_releases hcreate [0, 0, 100]
  rw [hreleases] at hpaced
  exact hpaced

/-- A clock that reads `-1` first is made to wait for its zero. -/
theorem negative_reading_waits :
    ∃ limiter, create 60 = .ok limiter ∧ limiter.releases [-1] = [0] ∧
      ¬ IsLeast {y : ℚ | -1 ≤ y ∧ ∀ z ∈ ([] : List ℚ), z + 1 ≤ y} 0 := by
  refine ⟨_, rfl, by norm_num [releases, release, waitSeconds], ?_⟩
  intro hleast
  have hle : (0 : ℚ) ≤ -1 := hleast.2 ⟨le_rfl, by simp⟩
  norm_num at hle

end AsyncRateLimiter

end PumpResearch.MarketData
