import PowerSink.Proofs.Pdo.Units

/-!
# Power of a power data object

The fields are narrow enough for all products to stay within a word, so the power in milliwatts is that of
the exact quantities, rounded down once. An object that was made from a request therefore promises no more
than the request amounts to.
-/

namespace PowerSink

namespace FixedPdo

variable (pdo : FixedPdo)

theorem millivolts_mul_milliamps_le :
    50 * pdo.voltage.toNat * (10 * pdo.current.toNat) ≤ 51150 * 10230 := by
  have hVoltage := pdo.voltage_lt
  have hCurrent := pdo.current_lt
  apply Nat.mul_le_mul <;> omega

theorem toNat_product :
    (pdo.millivolts * pdo.milliamps).toNat = pdo.millivolts.toNat * pdo.milliamps.toNat := by
  have hBound := pdo.millivolts_mul_milliamps_le
  rw [UInt32.toNat_mul, toNat_millivolts, toNat_milliamps]
  exact Nat.mod_eq_of_lt (hBound.trans_lt (by decide))

theorem toNat_maxMilliwatts :
    pdo.maxMilliwatts.toNat = pdo.millivolts.toNat * pdo.milliamps.toNat / 1000 := by
  rw [maxMilliwatts, UInt32.toNat_div, toNat_product]
  rfl

/-- Both units together are half a milliwatt. -/
theorem toNat_maxMilliwatts_eq_half :
    pdo.maxMilliwatts.toNat = pdo.voltage.toNat * pdo.current.toNat / 2 := by
  rw [toNat_maxMilliwatts, toNat_millivolts, toNat_milliamps]
  calc 50 * pdo.voltage.toNat * (10 * pdo.current.toNat) / 1000
      = 500 * (pdo.voltage.toNat * pdo.current.toNat) / (500 * 2) := by
        rw [Nat.mul_mul_mul_comm]
    _ = pdo.voltage.toNat * pdo.current.toNat / 2 := Nat.mul_div_mul_left _ _ (by decide)

variable {pdo}

theorem maxMilliwatts_mono {other : FixedPdo} (hVoltage : pdo.voltage ≤ other.voltage)
    (hCurrent : pdo.current ≤ other.current) : pdo.maxMilliwatts ≤ other.maxMilliwatts := by
  rw [UInt32.le_iff_toNat_le] at hVoltage hCurrent ⊢
  rw [toNat_maxMilliwatts_eq_half, toNat_maxMilliwatts_eq_half]
  exact Nat.div_le_div_right (Nat.mul_le_mul hVoltage hCurrent)

/-- The bits above the two quantities do not count. -/
theorem maxMilliwatts_congr {other : FixedPdo}
    (hLow : other.word.toNat % 2 ^ 20 = pdo.word.toNat % 2 ^ 20) :
    other.maxMilliwatts = pdo.maxMilliwatts := by
  have hDemand : other.demand = pdo.demand := by rw [demand, demand, hLow]
  have hVoltage := congrArg FixedPdo.voltage hDemand
  have hCurrent := congrArg FixedPdo.current hDemand
  rw [voltage_demand, voltage_demand] at hVoltage
  rw [current_demand, current_demand] at hCurrent
  apply UInt32.toNat_inj.mp
  rw [toNat_maxMilliwatts_eq_half, toNat_maxMilliwatts_eq_half, hVoltage, hCurrent]

section OfMillis

variable {millivolts milliamps : UInt32}

theorem maxMilliwatts_ofMillis_le :
    (ofMillis millivolts milliamps).maxMilliwatts.toNat ≤ millivolts.toNat * milliamps.toNat / 1000 := by
  rw [toNat_maxMilliwatts, toNat_millivolts_ofMillis, toNat_milliamps_ofMillis]
  exact Nat.div_le_div_right (Nat.mul_le_mul roundDown_le roundDown_le)

theorem maxMilliwatts_ofMillis_eq (hVoltage : 50 ∣ millivolts.toNat)
    (hVoltageLe : millivolts.toNat ≤ 51150) (hCurrent : 10 ∣ milliamps.toNat)
    (hCurrentLe : milliamps.toNat ≤ 10230) :
    (ofMillis millivolts milliamps).maxMilliwatts.toNat = millivolts.toNat * milliamps.toNat / 1000 := by
  rw [toNat_maxMilliwatts, toNat_millivolts_ofMillis, toNat_milliamps_ofMillis,
    roundDown_eq_self (by decide) hVoltage hVoltageLe, roundDown_eq_self (by decide) hCurrent hCurrentLe]

end OfMillis

end FixedPdo

/-- No product wraps around, the power is the exact one rounded down, and no request is promised more
power than it amounts to. -/
theorem power_is_never_overstated :
    (∀ pdo : FixedPdo,
      let v := pdo.word.toNat / 2 ^ 10 % 2 ^ 10
      let c := pdo.word.toNat % 2 ^ 10
      50 * v < 2 ^ 32 ∧ 10 * c < 2 ^ 32 ∧ 50 * v * (10 * c) < 2 ^ 32 ∧
      pdo.millivolts.toNat = 50 * v ∧ pdo.milliamps.toNat = 10 * c ∧
      (pdo.millivolts * pdo.milliamps).toNat = 50 * v * (10 * c) ∧
      pdo.maxMilliwatts.toNat = v * c / 2 ∧
      pdo.maxMilliwatts.toNat = pdo.millivolts.toNat * pdo.milliamps.toNat / 1000 ∧
      ∀ other : FixedPdo,
        (other.word.toNat % 2 ^ 20 = pdo.word.toNat % 2 ^ 20 →
          other.maxMilliwatts = pdo.maxMilliwatts) ∧
        (v ≤ other.word.toNat / 2 ^ 10 % 2 ^ 10 → c ≤ other.word.toNat % 2 ^ 10 →
          pdo.maxMilliwatts ≤ other.maxMilliwatts)) ∧
    ∀ millivolts milliamps : UInt32,
      let exact := millivolts.toNat * milliamps.toNat / 1000
      (FixedPdo.ofMillis millivolts milliamps).maxMilliwatts.toNat ≤ exact ∧
      (50 ∣ millivolts.toNat → millivolts.toNat ≤ 51150 → 10 ∣ milliamps.toNat →
        milliamps.toNat ≤ 10230 →
        (FixedPdo.ofMillis millivolts milliamps).maxMilliwatts.toNat = exact) := by
  constructor
  · intro pdo v c
    have hVoltage : pdo.voltage.toNat = v := pdo.toNat_voltage
    have hCurrent : pdo.current.toNat = c := pdo.toNat_current
    have hMillivolts := pdo.toNat_millivolts
    have hMilliamps := pdo.toNat_milliamps
    have hProduct := pdo.toNat_product
    have hPower := pdo.toNat_maxMilliwatts_eq_half
    rw [hVoltage] at hMillivolts hPower
    rw [hCurrent] at hMilliamps hPower
    rw [hMillivolts, hMilliamps] at hProduct
    refine ⟨hMillivolts ▸ pdo.millivolts.toNat_lt, hMilliamps ▸ pdo.milliamps.toNat_lt,
      hProduct ▸ (pdo.millivolts * pdo.milliamps).toNat_lt, hMillivolts, hMilliamps, hProduct, hPower,
      pdo.toNat_maxMilliwatts, ?_⟩
    intro other
    refine ⟨FixedPdo.maxMilliwatts_congr, ?_⟩
    intro hMoreVoltage hMoreCurrent
    rw [← other.toNat_voltage, ← hVoltage] at hMoreVoltage
    rw [← other.toNat_current, ← hCurrent] at hMoreCurrent
    exact FixedPdo.maxMilliwatts_mono (UInt32.le_iff_toNat_le.mpr hMoreVoltage)
      (UInt32.le_iff_toNat_le.mpr hMoreCurrent)
  · intro millivolts milliamps exact
    exact ⟨FixedPdo.maxMilliwatts_ofMillis_le, FixedPdo.maxMilliwatts_ofMillis_eq⟩

/-- A request in whole units is met exactly, whatever the flags, and one between units is not exceeded. -/
theorem power_is_never_overstated_twenty_volts :
    let whole := FixedPdo.ofMillis 20000 1000
    let flagged : FixedPdo := ⟨0xFFF64064⟩
    whole.maxMilliwatts.toNat = 20000 * 1000 / 1000 ∧ flagged.maxMilliwatts = whole.maxMilliwatts ∧
      whole.maxMilliwatts ≤ (FixedPdo.mk 0xFFFFF).maxMilliwatts ∧
      (FixedPdo.ofMillis 9010 3005).maxMilliwatts.toNat ≤ 9010 * 3005 / 1000 := by
  intro whole flagged
  obtain ⟨hWords, hRequests⟩ := power_is_never_overstated
  obtain ⟨_, _, _, _, _, _, _, _, hOthers⟩ := hWords whole
  obtain ⟨_, hWhole⟩ := hRequests 20000 1000
  obtain ⟨hBetween, _⟩ := hRequests 9010 3005
  exact ⟨hWhole (by decide) (by decide) (by decide) (by decide), (hOthers flagged).1 (by decide),
    (hOthers ⟨0xFFFFF⟩).2 (by decide) (by decide), hBetween⟩

end PowerSink
