import PumpResearch.Collection.LiveIntervals
import PumpResearch.Library.Binary64
import PumpResearch.Library.IntervalUnions

/-! The live time of a set of intervals. A sweep in time order adds the lengths of the separated
parts of their union, each sum rounded as a float. -/
namespace PumpResearch.Collection
open KeyedOrder IntervalUnions

section Sweep
variable (round : ℚ → ℚ)

/-- `timedelta.total_seconds`. -/
def totalSeconds (elapsed : Int) : ℚ := round (elapsed / 1000000)

/-- The loop of `live_seconds`, and the interval it ends with. -/
def sweepSeconds (total : ℚ) (currentStart currentEnd : Int) : List LiveCollectionInterval → ℚ
  | [] => round (total + totalSeconds round (currentEnd - currentStart))
  | interval :: rest =>
    if interval.start ≤ currentEnd then
      sweepSeconds total currentStart (max currentEnd interval.stop) rest
    else
      sweepSeconds (round (total + totalSeconds round (currentEnd - currentStart)))
        interval.start interval.stop rest

def intervalOrder (interval : LiveCollectionInterval) : Int ×ₗ Int ×ₗ Nat :=
  toLex (interval.start, toLex (interval.stop, interval.runId))

/-- `live_seconds`, where `round` is the rounding of floats. -/
def liveSeconds (intervals : List LiveCollectionInterval) : ℚ :=
  match sortOn intervalOrder intervals with
  | [] => 0
  | first :: rest => sweepSeconds round 0 first.start first.stop rest

/-- The rounded sum of lengths, in order. -/
def roundedSum (spans : List (Int × Int)) : ℚ :=
  spans.foldl (fun total span => round (total + totalSeconds round (span.2 - span.1))) 0

end Sweep

/-! ### The union -/

/-- The instants within some interval. -/
def liveInstants (intervals : List LiveCollectionInterval) : Set Int :=
  {instant | ∃ interval ∈ intervals, interval.Contains instant}

/-- The length of the union, in microseconds. -/
noncomputable def unionLength (intervals : List LiveCollectionInterval) : Nat :=
  (liveInstants intervals).ncard

/-- All ends are whole units, and sums of whole units up to the union's length are not rounded. -/
def ExactUnit (round : ℚ → ℚ) (unit : Nat) (intervals : List LiveCollectionInterval) : Prop :=
  (∀ interval ∈ intervals, (unit : Int) ∣ interval.start ∧ (unit : Int) ∣ interval.stop) ∧
    ∀ elapsed : Nat, elapsed ≤ unionLength intervals → unit ∣ elapsed →
      round (elapsed / 1000000) = elapsed / 1000000

section Union
variable {round : ℚ → ℚ} {intervals : List LiveCollectionInterval}

def spanOf (interval : LiveCollectionInterval) : Int × Int := (interval.start, interval.stop)

theorem liveInstants_eq (intervals : List LiveCollectionInterval) :
    liveInstants intervals = union (intervals.map spanOf) := by
  ext instant
  simp [liveInstants, union, LiveCollectionInterval.Contains, spanOf]

theorem liveInstants_append (before after : List LiveCollectionInterval) :
    liveInstants (before ++ after) = liveInstants before ∪ liveInstants after := by
  simp only [liveInstants_eq, List.map_append, union_append]

theorem liveInstants_finite (intervals : List LiveCollectionInterval) :
    (liveInstants intervals).Finite := by
  rw [liveInstants_eq]
  exact union_finite _

/-- The separated parts of the union. -/
def liveSpans (intervals : List LiveCollectionInterval) : List (Int × Int) :=
  merge ((sortOn intervalOrder intervals).map spanOf)

theorem sweepSeconds_eq (round : ℚ → ℚ) (total : ℚ) (currentStart currentEnd : Int)
    (rest : List LiveCollectionInterval) :
    sweepSeconds round total currentStart currentEnd rest =
      (mergeFrom (currentStart, currentEnd) (rest.map spanOf)).foldl
        (fun total span => round (total + totalSeconds round (span.2 - span.1))) total := by
  induction rest generalizing total currentStart currentEnd with
  | nil => rfl
  | cons interval rest ih =>
    rw [List.map_cons, mergeFrom, sweepSeconds]
    by_cases htouch : interval.start ≤ currentEnd
    · rw [if_pos htouch, if_pos (show (spanOf interval).1 ≤ currentEnd from htouch)]
      exact ih total currentStart (max currentEnd interval.stop)
    · rw [if_neg htouch, if_neg (show ¬ (spanOf interval).1 ≤ currentEnd from htouch)]
      exact ih _ interval.start interval.stop

theorem liveSeconds_eq (round : ℚ → ℚ) (intervals : List LiveCollectionInterval) :
    liveSeconds round intervals = roundedSum round (liveSpans intervals) := by
  unfold liveSeconds liveSpans roundedSum
  cases sortOn intervalOrder intervals with
  | nil => rfl
  | cons first rest => exact sweepSeconds_eq round 0 first.start first.stop rest

/-- The sweep finds the separated parts of the union. -/
theorem liveSpans_spec (hordered : ∀ interval ∈ intervals, interval.start < interval.stop) :
    Separated (liveSpans intervals) ∧ union (liveSpans intervals) = liveInstants intervals := by
  have hsorted : ((sortOn intervalOrder intervals).map spanOf).Pairwise fun a b => a.1 ≤ b.1 := by
    rw [List.pairwise_map]
    refine (sortOn_pairwise intervalOrder intervals).imp fun {a b} hle => ?_
    have hlex := Prod.Lex.le_iff.mp hle
    cases hlex with
    | inl hlt => exact hlt.le
    | inr heq => exact heq.1.le
  have hnonempty : ∀ span ∈ (sortOn intervalOrder intervals).map spanOf, span.1 < span.2 := by
    intro span hspan
    obtain ⟨interval, hinterval, rfl⟩ := List.mem_map.mp hspan
    exact hordered interval ((mem_sortOn _ _ _).mp hinterval)
  obtain ⟨hseparated, hunion⟩ := merge_spec hsorted hnonempty
  refine ⟨hseparated, hunion.trans ?_⟩
  rw [liveInstants_eq]
  refine union_congr fun span => ?_
  simp only [List.mem_map, mem_sortOn]

/-- Only the union counts. -/
theorem liveSeconds_congr {others : List LiveCollectionInterval}
    (hordered : ∀ interval ∈ intervals, interval.start < interval.stop)
    (hordered' : ∀ interval ∈ others, interval.start < interval.stop)
    (hsame : liveInstants others = liveInstants intervals) :
    liveSeconds round others = liveSeconds round intervals := by
  obtain ⟨hseparated, hunion⟩ := liveSpans_spec hordered
  obtain ⟨hseparated', hunion'⟩ := liveSpans_spec hordered'
  rw [liveSeconds_eq, liveSeconds_eq,
    hseparated'.unique hseparated (hunion'.trans (hsame.trans hunion.symm))]

end Union

/-! ### Exact sums -/

section Exact
variable {round : ℚ → ℚ} {unit : Nat} {intervals : List LiveCollectionInterval}

/-- Without rounding, the sum of whole lengths is the length of their sum. -/
theorem foldl_exact {spans : List (Int × Int)} {limit before : Nat}
    (hspans : ∀ span ∈ spans, span.1 < span.2 ∧ (unit : Int) ∣ span.1 ∧ (unit : Int) ∣ span.2)
    (hround : ∀ elapsed : Nat, elapsed ≤ limit → unit ∣ elapsed →
      round (elapsed / 1000000) = elapsed / 1000000)
    (hlimit : before + (spans.map fun span => (span.2 - span.1).toNat).sum ≤ limit)
    (hbefore : unit ∣ before) :
    spans.foldl (fun total span => round (total + totalSeconds round (span.2 - span.1)))
        ((before : ℚ) / 1000000) =
      ((before + (spans.map fun span => (span.2 - span.1).toNat).sum : Nat) : ℚ) / 1000000 := by
  induction spans generalizing before with
  | nil => simp
  | cons span rest ih =>
    obtain ⟨hlt, hstart, hstop⟩ := hspans span List.mem_cons_self
    rw [List.map_cons, List.sum_cons] at hlimit ⊢
    obtain ⟨length, hlength⟩ := Int.eq_ofNat_of_zero_le (show 0 ≤ span.2 - span.1 by omega)
    have hunit : unit ∣ length := by
      have hdvd := dvd_sub hstop hstart
      rw [hlength] at hdvd
      exact Int.natCast_dvd_natCast.mp hdvd
    rw [hlength, Int.toNat_natCast] at hlimit ⊢
    have hone : totalSeconds round (length : Int) = (length : ℚ) / 1000000 := by
      rw [totalSeconds, Int.cast_natCast]
      exact hround length (by omega) hunit
    have hsum : round ((before : ℚ) / 1000000 + totalSeconds round (length : Int)) =
        ((before + length : Nat) : ℚ) / 1000000 := by
      rw [hone, ← add_div, ← Nat.cast_add]
      exact hround (before + length) (by omega) (hbefore.add hunit)
    rw [List.foldl_cons, hlength, hsum, ih (fun s hs => hspans s (List.mem_cons_of_mem _ hs))
      (by omega) (hbefore.add hunit), Nat.add_assoc]

theorem liveSpans_ends {IsEnd : Int → Prop}
    (h : ∀ interval ∈ intervals, IsEnd interval.start ∧ IsEnd interval.stop) :
    ∀ span ∈ liveSpans intervals, IsEnd span.1 ∧ IsEnd span.2 := by
  refine merge_ends fun span hspan => ?_
  obtain ⟨interval, hinterval, rfl⟩ := List.mem_map.mp hspan
  exact h interval ((mem_sortOn _ _ _).mp hinterval)

/-- Where sums are exact, the live time is the length of the union. -/
theorem liveSeconds_exact (hordered : ∀ interval ∈ intervals, interval.start < interval.stop)
    (hexact : ExactUnit round unit intervals) :
    liveSeconds round intervals = (unionLength intervals : ℚ) / 1000000 := by
  obtain ⟨hseparated, hunion⟩ := liveSpans_spec hordered
  have hlength : ((liveSpans intervals).map fun span => (span.2 - span.1).toNat).sum =
      unionLength intervals := by
    rw [unionLength, ← hunion, hseparated.ncard_union]
  have hends := @liveSpans_ends intervals (fun instant => (unit : Int) ∣ instant) hexact.1
  have hsum := @foldl_exact round unit (liveSpans intervals) (unionLength intervals) 0
    (fun span hspan => ⟨hseparated.nonempty span hspan, hends span hspan⟩) hexact.2
    (by omega) (dvd_zero _)
  rw [hlength, Nat.zero_add, Nat.cast_zero, zero_div] at hsum
  rw [liveSeconds_eq, roundedSum, hsum]

end Exact

/-! ### Rounded sums -/

section Rounded
variable {round : ℚ → ℚ} {error : ℚ}

/-- One step of the sum. `drift` is the relative error so far, at least that of one rounding. -/
theorem add_close (hround : ∀ x, |round x - x| ≤ error * |x|) {total exact drift : ℚ}
    {elapsed : Int} (herror : 0 ≤ error) (helapsed : 0 ≤ elapsed) (hexact : 0 ≤ exact)
    (hdrift : error ≤ drift) (hclose : |total - exact| ≤ drift * exact) :
    |round (total + totalSeconds round elapsed) - (exact + elapsed / 1000000)| ≤
      ((1 + error) * (1 + drift) - 1) * (exact + elapsed / 1000000) := by
  have hseconds : (0 : ℚ) ≤ elapsed / 1000000 := by
    have hcast : (0 : ℚ) ≤ elapsed := Int.cast_nonneg helapsed
    positivity
  have hlength : |totalSeconds round elapsed - elapsed / 1000000| ≤
      drift * (elapsed / 1000000) := by
    have hone := hround (elapsed / 1000000)
    rw [abs_of_nonneg hseconds] at hone
    exact hone.trans (mul_le_mul_of_nonneg_right hdrift hseconds)
  have hsum : |total + totalSeconds round elapsed - (exact + elapsed / 1000000)| ≤
      drift * (exact + elapsed / 1000000) := by
    have htriangle := abs_add_le (total - exact)
      (totalSeconds round elapsed - elapsed / 1000000)
    rw [sub_add_sub_comm] at htriangle
    linarith
  have hlast := hround (total + totalSeconds round elapsed)
  have hsize : |total + totalSeconds round elapsed| ≤
      (1 + drift) * (exact + elapsed / 1000000) := by
    have htriangle := abs_sub_abs_le_abs_sub (total + totalSeconds round elapsed)
      (exact + elapsed / 1000000)
    rw [abs_of_nonneg (add_nonneg hexact hseconds)] at htriangle
    linarith
  calc |round (total + totalSeconds round elapsed) - (exact + elapsed / 1000000)|
      ≤ |round (total + totalSeconds round elapsed) - (total + totalSeconds round elapsed)| +
          |total + totalSeconds round elapsed - (exact + elapsed / 1000000)| :=
        abs_sub_le _ _ _
    _ ≤ error * ((1 + drift) * (exact + elapsed / 1000000)) +
          drift * (exact + elapsed / 1000000) :=
        add_le_add (hlast.trans (mul_le_mul_of_nonneg_left hsize herror)) hsum
    _ = ((1 + error) * (1 + drift) - 1) * (exact + elapsed / 1000000) := by ring

theorem foldl_close (hround : ∀ x, |round x - x| ≤ error * |x|) (herror : 0 ≤ error)
    {spans : List (Int × Int)} (hspans : ∀ span ∈ spans, span.1 < span.2) {roundings before : Nat}
    {total : ℚ} (hclose : |total - before / 1000000| ≤
      ((1 + error) ^ (roundings + 1) - 1) * (before / 1000000)) :
    |spans.foldl (fun total span => round (total + totalSeconds round (span.2 - span.1))) total -
        ((before + (spans.map fun span => (span.2 - span.1).toNat).sum : Nat) : ℚ) / 1000000| ≤
      ((1 + error) ^ (roundings + spans.length + 1) - 1) *
        (((before + (spans.map fun span => (span.2 - span.1).toNat).sum : Nat) : ℚ) / 1000000) := by
  induction spans generalizing roundings before total with
  | nil => simpa using hclose
  | cons span rest ih =>
    have hlt := hspans span List.mem_cons_self
    obtain ⟨length, hlength⟩ := Int.eq_ofNat_of_zero_le (show 0 ≤ span.2 - span.1 by omega)
    have hdrift : error ≤ (1 + error) ^ (roundings + 1) - 1 := by
      have hpow : (1 + error) ^ 1 ≤ (1 + error) ^ (roundings + 1) :=
        pow_le_pow_right₀ (by linarith) (by omega)
      linarith
    have hstep := add_close hround herror (Int.natCast_nonneg length)
      (show (0 : ℚ) ≤ before / 1000000 by positivity) hdrift hclose
    have hnext : (before : ℚ) / 1000000 + ((length : Int) : ℚ) / 1000000 =
        ((before + length : Nat) : ℚ) / 1000000 := by
      push_cast
      ring
    have hgrow : (1 + error) * (1 + ((1 + error) ^ (roundings + 1) - 1)) - 1 =
        (1 + error) ^ (roundings + 1 + 1) - 1 := by ring
    rw [hnext, hgrow] at hstep
    have hrest := ih (fun s hs => hspans s (List.mem_cons_of_mem _ hs)) hstep
    rw [List.foldl_cons, List.map_cons, List.sum_cons, List.length_cons, hlength,
      Int.toNat_natCast, ← Nat.add_assoc, Nat.add_comm rest.length 1, ← Nat.add_assoc]
    exact hrest

/-- Each of the sums and the lengths of the parts is rounded once. -/
theorem roundedSum_close (hround : ∀ x, |round x - x| ≤ error * |x|) (herror : 0 ≤ error)
    {spans : List (Int × Int)} (hseparated : Separated spans) :
    |roundedSum round spans - ((union spans).ncard : ℚ) / 1000000| ≤
      ((1 + error) ^ (spans.length + 1) - 1) * (((union spans).ncard : ℚ) / 1000000) := by
  have hstart : |(0 : ℚ) - ((0 : Nat) : ℚ) / 1000000| ≤
      ((1 + error) ^ (0 + 1) - 1) * (((0 : Nat) : ℚ) / 1000000) := by simp
  have hclose := foldl_close hround herror hseparated.nonempty hstart
  rw [Nat.zero_add, Nat.zero_add, ← hseparated.ncard_union] at hclose
  exact hclose

end Rounded

/-! ### Lengths of unions -/

section Lengths
variable {intervals : List LiveCollectionInterval}

theorem length_liveSpans_le (intervals : List LiveCollectionInterval) :
    (liveSpans intervals).length ≤ intervals.length := by
  have hmerge := length_merge_le ((sortOn intervalOrder intervals).map spanOf)
  rw [List.length_map, (sortOn_perm intervalOrder intervals).length_eq] at hmerge
  exact hmerge

theorem unionLength_le {low high : Int}
    (h : ∀ interval ∈ intervals, low ≤ interval.start ∧ interval.stop ≤ high) :
    unionLength intervals ≤ (high - low).toNat := by
  rw [unionLength, liveInstants_eq]
  refine ncard_union_le fun span hspan => ?_
  obtain ⟨interval, hinterval, rfl⟩ := List.mem_map.mp hspan
  exact h interval hinterval

theorem unionLength_append {before after : List LiveCollectionInterval}
    (hdisjoint : Disjoint (liveInstants before) (liveInstants after)) :
    unionLength (before ++ after) = unionLength before + unionLength after := by
  rw [unionLength, liveInstants_append]
  exact Set.ncard_union_eq hdisjoint (liveInstants_finite before) (liveInstants_finite after)

/-- Sixty-fourths of a second are binary fractions, so their sums are exact. -/
theorem exactUnit_sixtyFourths
    (hends : ∀ interval ∈ intervals, 15625 ∣ interval.start ∧ 15625 ∣ interval.stop)
    (hlength : unionLength intervals < 2 ^ 53 * 15625) :
    ExactUnit Binary64.round 15625 intervals := by
  refine ⟨hends, fun elapsed hle hdvd => ?_⟩
  obtain ⟨count, rfl⟩ := hdvd
  have hcount : |(count : Int)| < 2 ^ 53 := by
    rw [abs_of_nonneg (Int.natCast_nonneg count)]
    omega
  have hfraction : ((15625 * count : Nat) : ℚ) / 1000000 = ((count : Int) : ℚ) * 2 ^ (-6 : ℤ) := by
    push_cast
    ring
  rw [hfraction]
  exact Binary64.round_of_dyadic count (-6) hcount

end Lengths

/-- The live time is the rounded sum of the lengths of the separated parts of the union: it depends
on the union only, is off by one rounding for each part and one more, and is the length of the
union itself where all ends are sixty-fourths of a second. -/
theorem live_seconds_of_union (intervals : List LiveCollectionInterval)
    (hordered : ∀ interval ∈ intervals, interval.start < interval.stop) :
    (∃ spans : List (Int × Int),
      Separated spans ∧ union spans = liveInstants intervals ∧ spans.length ≤ intervals.length ∧
        liveSeconds Binary64.round intervals = roundedSum Binary64.round spans ∧
        |liveSeconds Binary64.round intervals - (unionLength intervals : ℚ) / 1000000| ≤
          ((1 + 1 / 2 ^ 53) ^ (spans.length + 1) - 1) *
            ((unionLength intervals : ℚ) / 1000000)) ∧
    (∀ others : List LiveCollectionInterval,
      (∀ interval ∈ others, interval.start < interval.stop) →
        liveInstants others = liveInstants intervals →
          liveSeconds Binary64.round others = liveSeconds Binary64.round intervals) ∧
    (∀ low high : Int,
      (∀ interval ∈ intervals, low ≤ interval.start ∧ interval.stop ≤ high) →
        unionLength intervals ≤ (high - low).toNat) ∧
    (∀ before after : List LiveCollectionInterval, intervals = before ++ after →
      Disjoint (liveInstants before) (liveInstants after) →
        unionLength intervals = unionLength before + unionLength after) ∧
    ((∀ interval ∈ intervals, 15625 ∣ interval.start ∧ 15625 ∣ interval.stop) →
      unionLength intervals < 2 ^ 53 * 15625 →
        liveSeconds Binary64.round intervals = (unionLength intervals : ℚ) / 1000000) := by
  refine ⟨?_, ?_, ?_, ?_, ?_⟩
  · obtain ⟨hseparated, hunion⟩ := liveSpans_spec hordered
    have hround : ∀ x : ℚ, |Binary64.round x - x| ≤ 1 / 2 ^ 53 * |x| := by
      intro x
      have hclose := Binary64.round_close x
      rwa [div_eq_mul_one_div, mul_comm] at hclose
    have hclose := roundedSum_close hround (by positivity) hseparated
    rw [hunion, ← liveSeconds_eq] at hclose
    exact ⟨liveSpans intervals, hseparated, hunion, length_liveSpans_le intervals,
      liveSeconds_eq _ _, hclose⟩
  · exact fun others hordered' hsame => liveSeconds_congr hordered hordered' hsame
  · exact fun low high haround => unionLength_le haround
  · intro before after happend hdisjoint
    rw [happend]
    exact unionLength_append hdisjoint
  · exact fun hends hlength => liveSeconds_exact hordered (exactUnit_sixtyFourths hends hlength)

/-- Two runs overlap by a second. -/
def overlappingIntervals : List LiveCollectionInterval := [⟨1, 0, 3000000⟩, ⟨2, 2000000, 5000000⟩]

theorem live_seconds_of_overlap :
    (∀ interval ∈ overlappingIntervals, interval.start < interval.stop) ∧
      liveSeconds Binary64.round overlappingIntervals =
        (unionLength overlappingIntervals : ℚ) / 1000000 := by
  have hordered : ∀ interval ∈ overlappingIntervals, interval.start < interval.stop := by decide
  have hexact := (live_seconds_of_union overlappingIntervals hordered).2.2.2.2
  have hlength : unionLength overlappingIntervals ≤ (5000000 - 0 : Int).toNat :=
    unionLength_le (by decide)
  exact ⟨hordered, hexact (by decide) (by omega)⟩

/-- A run of a tenth of a second and one of two tenths. -/
def shortIntervals : List LiveCollectionInterval := [⟨1, 0, 100000⟩, ⟨2, 200000, 400000⟩]

theorem unionLength_shortIntervals : unionLength shortIntervals = 300000 := by
  have hseparated : Separated (shortIntervals.map spanOf) := ⟨by decide, by decide⟩
  rw [unionLength, liveInstants_eq, hseparated.ncard_union]
  rfl

/-- The live time is not even the float nearest to the length of the union. -/
theorem live_seconds_not_unionLength :
    ¬ ∀ intervals : List LiveCollectionInterval,
      (∀ interval ∈ intervals, interval.start < interval.stop) →
        liveSeconds Binary64.round intervals =
          Binary64.round ((unionLength intervals : ℚ) / 1000000) := by
  intro h
  have hlength := h shortIntervals (by decide)
  rw [unionLength_shortIntervals] at hlength
  have hsum : liveSeconds Binary64.round shortIntervals ≠
      Binary64.round ((300000 : Nat) / 1000000) := by decide +kernel
  exact hsum hlength

end PumpResearch.Collection
