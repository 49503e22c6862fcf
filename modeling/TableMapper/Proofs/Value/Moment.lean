import TableMapper.BigEndian
import TableMapper.Value.Moment

/-!
# Moments in microseconds

Counting a moment in microseconds since 2000-01-01 cuts off less than a microsecond, toward that
point. The count fits into eight bytes. The calendar covers the moment it stands for, except where
a leap second follows its last second; and a leap second is counted as the second behind it.

## Main definitions

* `Moment.CutFrom` — a moment that another one is cut to.
-/

namespace TableMapper

namespace Moment

/-- The moment `m'` has whole microseconds and is in no leap second, and it is `m` with less than a
microsecond cut off, in the direction of 2000-01-01. -/
structure CutFrom (m' m : Moment) : Prop where
  nanos_mod : m'.nanos % 1000 = 0
  not_isLeap : ¬ m'.IsLeap
  after : 0 ≤ m.sinceEpoch →
    0 ≤ m'.sinceEpoch ∧ m'.sinceEpoch ≤ m.sinceEpoch ∧ m.sinceEpoch < m'.sinceEpoch + 1000
  before : m.sinceEpoch ≤ 0 →
    m'.sinceEpoch ≤ 0 ∧ m.sinceEpoch ≤ m'.sinceEpoch ∧ m'.sinceEpoch < m.sinceEpoch + 1000
  whole : m'.sinceEpoch = m.sinceEpoch ↔ m.nanos % 1000 = 0
  eq_iff : m' = m ↔ m.nanos % 1000 = 0 ∧ ¬ m.IsLeap

variable {m m' : Moment}

/-- Outside leap seconds, a moment is determined by its place on the time line. -/
theorem eq_of_sinceEpoch_eq (hm' : ¬ m'.IsLeap) (hm : ¬ m.IsLeap)
    (h : m'.sinceEpoch = m.sinceEpoch) : m' = m := by
  obtain ⟨seconds, nanos, hnanos, hle, hge⟩ := m
  obtain ⟨seconds', nanos', hnanos', hle', hge'⟩ := m'
  simp only [IsLeap, sinceEpoch] at hm hm' h
  have hseconds : seconds' = seconds := by omega
  have hnanosEq : nanos' = nanos := by omega
  subst hseconds hnanosEq
  rfl

theorem micros_nonneg (h : 0 ≤ m.sinceEpoch) : m.micros = m.sinceEpoch / 1000 :=
  Int.tdiv_eq_ediv_of_nonneg h

theorem micros_nonpos (h : m.sinceEpoch ≤ 0) : m.micros = -(-m.sinceEpoch / 1000) := by
  have hneg : (-m.sinceEpoch).tdiv 1000 = -m.sinceEpoch / 1000 :=
    Int.tdiv_eq_ediv_of_nonneg (by omega)
  rw [micros, ← hneg, Int.neg_tdiv, Int.neg_neg]

/-- The calendar in nanoseconds since 2000-01-01, a leap second behind its end included. -/
theorem sinceEpoch_bounds (m : Moment) :
    (firstSecond - epoch) * 1000000000 ≤ m.sinceEpoch ∧
      m.sinceEpoch < (lastSecond - epoch + 2) * 1000000000 := by
  have hseconds := m.le_seconds
  have hseconds' := m.seconds_le
  have hnanos := m.nanos_lt
  unfold sinceEpoch
  omega

theorem afterCalendar_iff :
    m.AfterCalendar ↔ (lastSecond - epoch + 1) * 1000000000 ≤ m.sinceEpoch := by
  have hseconds := m.seconds_le
  have hnanos := m.nanos_lt
  unfold AfterCalendar IsLeap sinceEpoch
  omega

theorem fits_micros (m : Moment) : BigEndian.fits 8 m.micros := by
  have hsince := m.sinceEpoch_bounds
  unfold firstSecond lastSecond epoch at hsince
  have hbounds : -(2 ^ 63 : Int) ≤ m.micros ∧ m.micros < 2 ^ 63 := by
    rcases Int.le_total 0 m.sinceEpoch with h | h
    · rw [micros_nonneg h]
      omega
    · rw [micros_nonpos h]
      omega
  simpa [BigEndian.fits] using hbounds

/-- The calendar covers what a moment is cut to. -/
theorem exists_ofMicros?_micros (h : ¬ m.AfterCalendar) :
    ∃ m', ofMicros? m.micros = some m' ∧ m'.sinceEpoch = m.micros * 1000 ∧ ¬ m'.IsLeap := by
  have hsince := m.sinceEpoch_bounds
  rw [afterCalendar_iff] at h
  unfold firstSecond lastSecond epoch at hsince
  unfold lastSecond epoch at h
  have hcovered : (m.micros % 1000000).toNat * 1000 < 2000000000 ∧
      firstSecond ≤ m.micros / 1000000 + epoch ∧ m.micros / 1000000 + epoch ≤ lastSecond := by
    unfold firstSecond lastSecond epoch
    rcases Int.le_total 0 m.sinceEpoch with hpos | hneg
    · rw [micros_nonneg hpos]
      omega
    · rw [micros_nonpos hneg]
      omega
  refine ⟨_, dif_pos hcovered, ?_, ?_⟩
  · simp only [sinceEpoch]
    omega
  · simp only [IsLeap]
    omega

theorem ofMicros?_micros_eq_none (h : m.AfterCalendar) : ofMicros? m.micros = none := by
  rw [afterCalendar_iff] at h
  refine dif_neg fun hcovered => ?_
  have hlast := hcovered.2.2
  unfold lastSecond epoch at h hlast
  rw [micros_nonneg (by omega)] at hlast
  omega

theorem cutFrom_micros (h : m'.sinceEpoch = m.micros * 1000) (hleap : ¬ m'.IsLeap) :
    m'.CutFrom m := by
  have hsince : m.sinceEpoch = (m.seconds - epoch) * 1000000000 + m.nanos := rfl
  have hsince' : m'.sinceEpoch = (m'.seconds - epoch) * 1000000000 + m'.nanos := rfl
  have hmod : m'.nanos % 1000 = 0 := by omega
  have hwhole : m'.sinceEpoch = m.sinceEpoch ↔ m.nanos % 1000 = 0 := by
    rcases Int.le_total 0 m.sinceEpoch with hpos | hneg
    · rw [micros_nonneg hpos] at h
      omega
    · rw [micros_nonpos hneg] at h
      omega
  refine ⟨hmod, hleap, fun hpos => ?_, fun hneg => ?_, hwhole, fun heq => ?_, fun hkept => ?_⟩
  · rw [micros_nonneg hpos] at h
    omega
  · rw [micros_nonpos hneg] at h
    omega
  · exact heq ▸ ⟨hmod, hleap⟩
  · exact eq_of_sinceEpoch_eq hleap hkept.2 (hwhole.mpr hkept.1)

end Moment

end TableMapper
