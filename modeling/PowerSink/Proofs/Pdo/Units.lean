import Mathlib.Order.Bounds.Basic
import PowerSink.Proofs.Pdo.Updates

/-!
# Voltage and current in the units of the fields

A request in millivolts and milliamperes is rounded down to whole units and stops at the largest value
of the field, so an object never asks for more than it was made from. The conversions out of the units
are exact, and a request that is already a whole number of units within the fields survives the way
through them.
-/

namespace PowerSink

/-- The largest multiple of a unit that is not above an amount, up to `max` units. -/
def roundDown (unit max amount : ℕ) : ℕ := unit * min (amount / unit) max

section RoundDown

variable {unit max amount : ℕ}

theorem roundDown_le : roundDown unit max amount ≤ amount :=
  (Nat.mul_le_mul_left unit (min_le_left _ _)).trans (Nat.mul_div_le amount unit)

theorem isGreatest_roundDown (hUnit : 0 < unit) :
    IsGreatest {n | unit ∣ n ∧ n ≤ min amount (unit * max)} (roundDown unit max amount) := by
  constructor
  · exact ⟨Nat.dvd_mul_right _ _, le_min roundDown_le (Nat.mul_le_mul_left unit (min_le_right _ _))⟩
  · rintro n ⟨⟨units, rfl⟩, hLe⟩
    obtain ⟨hAmount, hMax⟩ := Nat.le_min.mp hLe
    apply Nat.mul_le_mul_left
    apply le_min
    · rw [Nat.le_div_iff_mul_le hUnit, Nat.mul_comm]
      exact hAmount
    · exact Nat.le_of_mul_le_mul_left hMax hUnit

theorem roundDown_eq_self (hUnit : 0 < unit) (hDvd : unit ∣ amount) (hLe : amount ≤ unit * max) :
    roundDown unit max amount = amount := by
  apply le_antisymm roundDown_le
  exact (isGreatest_roundDown hUnit).2 ⟨hDvd, le_min le_rfl hLe⟩

end RoundDown

namespace FixedPdo

theorem toNat_voltage (pdo : FixedPdo) : pdo.voltage.toNat = pdo.word.toNat / 2 ^ 10 % 2 ^ 10 :=
  Field.toNat_read (.quantity .voltage) pdo.word

theorem toNat_current (pdo : FixedPdo) : pdo.current.toNat = pdo.word.toNat % 2 ^ 10 := by
  have hRead := Field.toNat_read (.quantity .current) pdo.word
  rwa [Field.low, Field.width, Nat.pow_zero, Nat.div_one] at hRead

theorem voltage_lt (pdo : FixedPdo) : pdo.voltage.toNat < 1024 := by
  rw [toNat_voltage]
  exact Nat.mod_lt _ (by decide)

theorem current_lt (pdo : FixedPdo) : pdo.current.toNat < 1024 := by
  rw [toNat_current]
  exact Nat.mod_lt _ (by decide)

/-- Counts of 16 bits leave room for either unit. -/
theorem toNat_scaled {unit count : UInt32} (hUnit : unit.toNat ≤ 50) (hCount : count.toNat < 65536) :
    (unit * count).toNat = unit.toNat * count.toNat := by
  have hProduct : unit.toNat * count.toNat ≤ 50 * count.toNat := Nat.mul_le_mul_right _ hUnit
  rw [UInt32.toNat_mul]
  omega

theorem toNat_millivolts (pdo : FixedPdo) : pdo.millivolts.toNat = 50 * pdo.voltage.toNat := by
  rw [millivolts, UInt32.mul_comm]
  exact toNat_scaled (by decide) (pdo.voltage_lt.trans (by decide))

theorem toNat_milliamps (pdo : FixedPdo) : pdo.milliamps.toNat = 10 * pdo.current.toNat := by
  rw [milliamps, UInt32.mul_comm]
  exact toNat_scaled (by decide) (pdo.current_lt.trans (by decide))

theorem toNat_saturate (q : Quantity) (value : UInt32) :
    (saturate q value).toNat = min value.toNat (2 ^ (Field.quantity q).width - 1) := by
  have hMin : saturate q value =
      if value ≤ (Field.quantity q).ones then value else (Field.quantity q).ones := rfl
  rw [hMin, ← Field.toNat_ones, apply_ite UInt32.toNat, Nat.min_def]
  exact if_congr UInt32.le_iff_toNat_le rfl rfl

theorem toNat_saturate_div (q : Quantity) (given unit : UInt32) :
    (saturate q (given / unit)).toNat =
      min (given.toNat / unit.toNat) (2 ^ (Field.quantity q).width - 1) := by
  rw [toNat_saturate, UInt32.toNat_div]

theorem saturate_div_mono (q : Quantity) {given more unit : UInt32} (hLe : given ≤ more) :
    saturate q (given / unit) ≤ saturate q (more / unit) := by
  rw [UInt32.le_iff_toNat_le] at hLe ⊢
  rw [toNat_saturate_div, toNat_saturate_div]
  have hDiv : given.toNat / unit.toNat ≤ more.toNat / unit.toNat := Nat.div_le_div_right hLe
  omega

/-- A value that has been cut to the field is not truncated when it is written. -/
theorem saturate_mod (q : Quantity) (value : UInt32) : saturate q value % q.modulus = saturate q value := by
  apply UInt32.toNat_inj.mp
  rw [UInt32.toNat_mod, toNat_saturate]
  apply Nat.mod_eq_of_lt
  have hModulus : 2 ^ (Field.quantity q).width - 1 < q.modulus.toNat := by cases q <;> decide
  exact (Nat.min_le_right _ _).trans_lt hModulus

section OfFields

variable (voltage current : UInt32)

theorem ofFields_eq :
    ofFields voltage current = (FixedPdo.mk 0).updateAll
      [.quantity .voltage (saturate .voltage voltage),
        .quantity .current (saturate .current current)] := rfl

theorem voltage_ofFields : (ofFields voltage current).voltage = saturate .voltage voltage := by
  have hLatest := get_quantity_updateAll .voltage (FixedPdo.mk 0)
    [.quantity .voltage (saturate .voltage voltage), .quantity .current (saturate .current current)]
  rw [FixedPdo.voltage, ofFields_eq, hLatest]
  exact saturate_mod .voltage voltage

theorem current_ofFields : (ofFields voltage current).current = saturate .current current := by
  have hLatest := get_quantity_updateAll .current (FixedPdo.mk 0)
    [.quantity .voltage (saturate .voltage voltage), .quantity .current (saturate .current current)]
  rw [FixedPdo.current, ofFields_eq, hLatest]
  exact saturate_mod .current current

theorem get_ofFields_of_ne {field : Field} (hVoltage : field ≠ .quantity .voltage)
    (hCurrent : field ≠ .quantity .current) : (ofFields voltage current).get field = 0 := by
  have hSecond := get_update_of_ne (u := .quantity .current (saturate .current current)) hCurrent
    ((FixedPdo.mk 0).update (.quantity .voltage (saturate .voltage voltage)))
  have hFirst := get_update_of_ne (u := .quantity .voltage (saturate .voltage voltage)) hVoltage
    (FixedPdo.mk 0)
  have hZero : (FixedPdo.mk 0).get field = 0 := by
    apply UInt32.toNat_inj.mp
    rw [get, Field.toNat_read]
    simp
  exact hSecond.trans (hFirst.trans hZero)

end OfFields

section OfMillis

variable (millivolts milliamps : UInt32)

theorem voltage_ofMillis :
    (ofMillis millivolts milliamps).voltage = saturate .voltage (millivolts / millivoltsPerUnit) :=
  voltage_ofFields _ _

theorem current_ofMillis :
    (ofMillis millivolts milliamps).current = saturate .current (milliamps / milliampsPerUnit) :=
  current_ofFields _ _

theorem toNat_voltage_ofMillis :
    (ofMillis millivolts milliamps).voltage.toNat = min (millivolts.toNat / 50) 1023 := by
  rw [voltage_ofMillis, toNat_saturate_div]
  rfl

theorem toNat_current_ofMillis :
    (ofMillis millivolts milliamps).current.toNat = min (milliamps.toNat / 10) 1023 := by
  rw [current_ofMillis, toNat_saturate_div]
  rfl

theorem toNat_millivolts_ofMillis :
    (ofMillis millivolts milliamps).millivolts.toNat = roundDown 50 1023 millivolts.toNat := by
  rw [toNat_millivolts, toNat_voltage_ofMillis, roundDown]

theorem toNat_milliamps_ofMillis :
    (ofMillis millivolts milliamps).milliamps.toNat = roundDown 10 1023 milliamps.toNat := by
  rw [toNat_milliamps, toNat_current_ofMillis, roundDown]

end OfMillis

/-- An object that asks for the same voltage and current and for nothing else. -/
def demand (pdo : FixedPdo) : FixedPdo := ⟨UInt32.ofNat (pdo.word.toNat % 2 ^ 20)⟩

theorem toNat_demand (pdo : FixedPdo) : pdo.demand.word.toNat = pdo.word.toNat % 2 ^ 20 :=
  UInt32.toNat_ofNat_of_lt' ((Nat.mod_lt _ (by decide)).trans (by decide))

theorem voltage_demand (pdo : FixedPdo) : pdo.demand.voltage = pdo.voltage := by
  apply UInt32.toNat_inj.mp
  rw [toNat_voltage, toNat_voltage, toNat_demand]
  omega

theorem current_demand (pdo : FixedPdo) : pdo.demand.current = pdo.current := by
  apply UInt32.toNat_inj.mp
  rw [toNat_current, toNat_current, toNat_demand]
  omega

theorem get_demand_of_ne (pdo : FixedPdo) {field : Field} (hVoltage : field ≠ .quantity .voltage)
    (hCurrent : field ≠ .quantity .current) : pdo.demand.get field = 0 := by
  have hLow : 20 ≤ field.low := by
    cases field with
    | fixed => decide
    | reserved => decide
    | flag f => cases f <;> decide
    | quantity q =>
      cases q with
      | fastRoleSwap => decide
      | voltage => exact absurd rfl hVoltage
      | current => exact absurd rfl hCurrent
  have hSmall : pdo.demand.word.toNat < 2 ^ field.low := by
    rw [toNat_demand]
    exact (Nat.mod_lt _ (by decide)).trans_le (Nat.pow_le_pow_right (by decide) hLow)
  apply UInt32.toNat_inj.mp
  rw [get, Field.toNat_read, Nat.div_eq_of_lt hSmall, Nat.zero_mod]
  rfl

theorem eq_of_voltage_current {a b : FixedPdo} (hVoltage : a.voltage = b.voltage)
    (hCurrent : a.current = b.current)
    (hOthers : ∀ field, field ≠ .quantity .voltage → field ≠ .quantity .current →
      a.get field = b.get field) : a = b := by
  apply eq_of_get_eq
  intro field
  by_cases hFirst : field = .quantity .voltage
  · rw [hFirst]
    exact hVoltage
  · by_cases hSecond : field = .quantity .current
    · rw [hSecond]
      exact hCurrent
    · exact hOthers field hFirst hSecond

/-- The way to millivolts and milliamperes and back loses nothing but the other fields. -/
theorem ofMillis_self (pdo : FixedPdo) : ofMillis pdo.millivolts pdo.milliamps = pdo.demand := by
  apply eq_of_voltage_current
  · apply UInt32.toNat_inj.mp
    have hVoltage := pdo.voltage_lt
    rw [toNat_voltage_ofMillis, toNat_millivolts, voltage_demand]
    omega
  · apply UInt32.toNat_inj.mp
    have hCurrent := pdo.current_lt
    rw [toNat_current_ofMillis, toNat_milliamps, current_demand]
    omega
  · intro field hVoltage hCurrent
    rw [ofMillis, get_ofFields_of_ne _ _ hVoltage hCurrent, get_demand_of_ne pdo hVoltage hCurrent]

theorem demand_ofFields (voltage current : UInt32) :
    (ofFields voltage current).demand = ofFields voltage current := by
  apply eq_of_voltage_current (voltage_demand _) (current_demand _)
  intro field hVoltage hCurrent
  rw [get_demand_of_ne _ hVoltage hCurrent, get_ofFields_of_ne _ _ hVoltage hCurrent]

section OfUnits

variable (voltage current : UInt16)

theorem toNat_voltage_ofUnits : (ofUnits voltage current).voltage.toNat = min voltage.toNat 1023 := by
  rw [ofUnits, voltage_ofFields, toNat_saturate]
  rfl

theorem toNat_current_ofUnits : (ofUnits voltage current).current.toNat = min current.toNat 1023 := by
  rw [ofUnits, current_ofFields, toNat_saturate]
  rfl

theorem scaled_div {unit : UInt32} (hPos : 0 < unit.toNat) (hUnit : unit.toNat ≤ 50) (count : UInt16) :
    unit * count.toUInt32 / unit = count.toUInt32 := by
  have hCount : count.toUInt32.toNat < 65536 := count.toNat_lt
  apply UInt32.toNat_inj.mp
  rw [UInt32.toNat_div, toNat_scaled hUnit hCount]
  exact Nat.mul_div_cancel_left _ hPos

theorem ofUnits_eq_ofMillis :
    ofUnits voltage current = ofMillis (50 * voltage.toUInt32) (10 * current.toUInt32) := by
  rw [ofUnits, ofMillis, scaled_div (by decide) (by decide), scaled_div (by decide) (by decide)]

end OfUnits

end FixedPdo

/-- An object asks for the most that its fields can express within the request, and both ways to make one
stop at the end of a field, where an update would start again from zero. -/
theorem requests_round_down :
    (∀ millivolts milliamps : UInt32,
      let pdo := FixedPdo.ofMillis millivolts milliamps
      IsGreatest {n | 50 ∣ n ∧ n ≤ min millivolts.toNat 51150} pdo.millivolts.toNat ∧
      IsGreatest {n | 10 ∣ n ∧ n ≤ min milliamps.toNat 10230} pdo.milliamps.toNat ∧
      (∀ field, field ≠ .quantity .voltage → field ≠ .quantity .current → pdo.get field = 0) ∧
      FixedPdo.ofMillis pdo.millivolts pdo.milliamps = pdo ∧
      ∀ moreMillivolts moreMilliamps : UInt32,
        (FixedPdo.ofMillis millivolts moreMilliamps).voltage = pdo.voltage ∧
        (FixedPdo.ofMillis moreMillivolts milliamps).current = pdo.current ∧
        (millivolts ≤ moreMillivolts →
          pdo.voltage ≤ (FixedPdo.ofMillis moreMillivolts milliamps).voltage) ∧
        (milliamps ≤ moreMilliamps →
          pdo.current ≤ (FixedPdo.ofMillis millivolts moreMilliamps).current)) ∧
    (∀ pdo : FixedPdo,
      (FixedPdo.ofMillis pdo.millivolts pdo.milliamps).word.toNat = pdo.word.toNat % 2 ^ 20) ∧
    (∀ voltage current : UInt16,
      (50 * voltage.toUInt32).toNat = 50 * voltage.toNat ∧
      (10 * current.toUInt32).toNat = 10 * current.toNat ∧
      FixedPdo.ofUnits voltage current =
        FixedPdo.ofMillis (50 * voltage.toUInt32) (10 * current.toUInt32) ∧
      (FixedPdo.ofUnits voltage current).voltage.toNat = min voltage.toNat 1023 ∧
      (FixedPdo.ofUnits voltage current).current.toNat = min current.toNat 1023) ∧
    ∀ (pdo : FixedPdo) (q : FixedPdo.Quantity) (value : UInt32),
      (pdo.setQuantity q value).get (.quantity q) = value % q.modulus := by
  refine ⟨?_, ?_, ?_, ?_⟩
  · intro millivolts milliamps pdo
    refine ⟨?_, ?_, ?_, ?_, ?_⟩
    · rw [FixedPdo.toNat_millivolts_ofMillis]
      exact isGreatest_roundDown (by decide)
    · rw [FixedPdo.toNat_milliamps_ofMillis]
      exact isGreatest_roundDown (by decide)
    · intro field hVoltage hCurrent
      exact FixedPdo.get_ofFields_of_ne _ _ hVoltage hCurrent
    · rw [FixedPdo.ofMillis_self]
      exact FixedPdo.demand_ofFields _ _
    · intro moreMillivolts moreMilliamps
      have hVoltage := FixedPdo.voltage_ofMillis millivolts milliamps
      have hCurrent := FixedPdo.current_ofMillis millivolts milliamps
      refine ⟨(FixedPdo.voltage_ofMillis _ _).trans hVoltage.symm,
        (FixedPdo.current_ofMillis _ _).trans hCurrent.symm, ?_, ?_⟩
      · intro hLe
        rw [hVoltage, FixedPdo.voltage_ofMillis]
        exact FixedPdo.saturate_div_mono .voltage hLe
      · intro hLe
        rw [hCurrent, FixedPdo.current_ofMillis]
        exact FixedPdo.saturate_div_mono .current hLe
  · intro pdo
    rw [FixedPdo.ofMillis_self, FixedPdo.toNat_demand]
  · intro voltage current
    exact ⟨FixedPdo.toNat_scaled (by decide) voltage.toNat_lt,
      FixedPdo.toNat_scaled (by decide) current.toNat_lt,
      FixedPdo.ofUnits_eq_ofMillis voltage current, FixedPdo.toNat_voltage_ofUnits voltage current,
      FixedPdo.toNat_current_ofUnits voltage current⟩
  · intro pdo q value
    exact (pdo.get_update_self (.quantity q value)).trans (FixedPdo.clip_quantity q value)

/-- The larger request goes one unit past the fields, where truncation would ask for nothing at all. -/
theorem requests_round_down_at_the_limit :
    let inside := FixedPdo.ofMillis 51149 10229
    let past := FixedPdo.ofMillis 51200 10240
    inside.voltage = 1022 ∧ inside.voltage ≤ (FixedPdo.ofMillis 51200 10229).voltage ∧
      inside.current = 1022 ∧ inside.current ≤ (FixedPdo.ofMillis 51149 10240).current ∧
      past.word = 0xFFFFF ∧ past.get .reserved = 0 ∧ FixedPdo.ofUnits 1024 1024 = past ∧
      (past.setQuantity .voltage 1024).get (.quantity .voltage) = 0 := by
  intro inside past
  obtain ⟨hRequests, _, hUnits, hUpdates⟩ := requests_round_down
  obtain ⟨_, _, _, _, hMore⟩ := hRequests 51149 10229
  obtain ⟨_, _, hVoltage, hCurrent⟩ := hMore 51200 10240
  obtain ⟨_, _, hOthers, _⟩ := hRequests 51200 10240
  obtain ⟨_, _, hSame, _⟩ := hUnits 1024 1024
  exact ⟨by decide, hVoltage (by decide), by decide, hCurrent (by decide), by decide,
    hOthers .reserved (by decide) (by decide), hSame, hUpdates past .voltage 1024⟩

end PowerSink
