import PowerSink.Pdo.Fixed
import PowerSink.Proofs.Pdo.Field
import PowerSink.Proofs.Trace

/-!
# Updates of a power data object

A field shows the low bits of the latest value written to it, whatever was written to the other
fields since, and a field that was never written shows what it did at the start. The word depends on
nothing but the start and these latest values. The supply type and the reserved bits never change.
-/

namespace PowerSink

namespace FixedPdo

/-- One more than the largest value of a quantity. -/
def Quantity.modulus : Quantity → UInt32
  | fastRoleSwap => 4
  | voltage => 1024
  | current => 1024

theorem clip_quantity (q : Quantity) (value : UInt32) :
    (Field.quantity q).clip value = value % q.modulus := by
  apply UInt32.toNat_inj.mp
  rw [Field.toNat_clip, UInt32.toNat_mod]
  cases q <;> rfl

theorem clip_flag (f : Flag) (on : Bool) :
    (Field.flag f).clip (if on then 1 else 0) = if on then 1 else 0 := by
  apply UInt32.toNat_inj.mp
  rw [Field.toNat_clip]
  cases on <;> rfl

theorem get_flag (pdo : FixedPdo) (f : Flag) :
    pdo.get (.flag f) = if pdo.flag f then 1 else 0 := by
  have hBit : (pdo.get (.flag f)).toNat < 2 := by
    rw [get, Field.toNat_read]
    exact Nat.mod_lt _ Nat.two_pos
  by_cases hZero : pdo.get (.flag f) = 0
  · simp [flag, hZero]
  · have hPos : 0 < (pdo.get (.flag f)).toNat :=
      Nat.pos_of_ne_zero fun h => hZero (UInt32.toNat_inj.mp h)
    have hOne : pdo.get (.flag f) = 1 :=
      UInt32.toNat_inj.mp (Nat.le_antisymm (Nat.le_of_lt_succ hBit) hPos)
    simp [flag, hOne]

theorem eq_of_get_eq {a b : FixedPdo} (hGet : ∀ field, a.get field = b.get field) : a = b := by
  cases a
  cases b
  exact congrArg FixedPdo.mk (Field.eq_of_read_eq hGet)

namespace Update

def field : Update → Field
  | flag f _ => .flag f
  | quantity q _ => .quantity q

def value : Update → UInt32
  | flag _ on => if on then 1 else 0
  | quantity _ value => value

/-- To what an update switches a flag. -/
def switch? (f : Flag) : Update → Option Bool
  | flag g on => if g = f then some on else none
  | quantity _ _ => none

/-- What an update writes to a quantity. -/
def amount? (q : Quantity) : Update → Option UInt32
  | flag _ _ => none
  | quantity r value => if r = q then some value else none

end Update

theorem update_eq_write (pdo : FixedPdo) (u : Update) :
    pdo.update u = ⟨u.field.write u.value pdo.word⟩ := by
  cases u <;> rfl

theorem get_update_self (pdo : FixedPdo) (u : Update) :
    (pdo.update u).get u.field = u.field.clip u.value := by
  rw [update_eq_write]
  exact Field.read_write_self _ _ _

theorem get_update_of_ne {field : Field} {u : Update} (hNe : field ≠ u.field) (pdo : FixedPdo) :
    (pdo.update u).get field = pdo.get field := by
  rw [update_eq_write]
  exact Field.read_write_of_ne hNe _ _

theorem flag_update (f : Flag) (pdo : FixedPdo) (u : Update) :
    (pdo.update u).flag f = (u.switch? f).getD (pdo.flag f) := by
  cases u with
  | flag g on =>
    by_cases hSame : g = f
    · subst hSame
      have hGet : (pdo.update (.flag g on)).get (.flag g) = if on then 1 else 0 :=
        (pdo.get_update_self (.flag g on)).trans (clip_flag g on)
      rw [flag, hGet, Update.switch?, if_pos rfl]
      cases on <;> rfl
    · have hOther : Field.flag f ≠ (Update.flag g on).field :=
        fun hEq => hSame (Field.flag.inj hEq).symm
      rw [Update.switch?, if_neg hSame, flag, get_update_of_ne hOther]
      rfl
  | quantity q value =>
    have hOther : Field.flag f ≠ (Update.quantity q value).field := Field.noConfusion
    rw [flag, get_update_of_ne hOther]
    rfl

theorem get_quantity_update (q : Quantity) (pdo : FixedPdo) (u : Update) :
    (pdo.update u).get (.quantity q) =
      ((u.amount? q).map (· % q.modulus)).getD (pdo.get (.quantity q)) := by
  cases u with
  | flag f on =>
    have hOther : Field.quantity q ≠ (Update.flag f on).field := Field.noConfusion
    exact get_update_of_ne hOther pdo
  | quantity r value =>
    by_cases hSame : r = q
    · subst hSame
      rw [Update.amount?, if_pos rfl]
      exact (pdo.get_update_self (.quantity r value)).trans (clip_quantity r value)
    · have hOther : Field.quantity q ≠ (Update.quantity r value).field :=
        fun hEq => hSame (Field.quantity.inj hEq).symm
      rw [Update.amount?, if_neg hSame]
      exact get_update_of_ne hOther pdo

section Runs

variable {α : Type}

theorem view_updateAll (view : FixedPdo → α) (value? : Update → Option α)
    (hUpdate : ∀ pdo u, view (update pdo u) = (value? u).getD (view pdo)) (pdo : FixedPdo)
    (updates : List Update) :
    view (pdo.updateAll updates) = (latest? value? updates).getD (view pdo) := by
  change view (final (fun pdo u => ((), update pdo u)) pdo updates) = _
  have hKeeps : ∀ (_ : FixedPdo) (_ : Update), True → True → True := fun _ _ _ _ => trivial
  exact view_final view value? hKeeps (fun pdo u _ _ => hUpdate pdo u) trivial (fun _ _ => trivial)

theorem flag_updateAll (f : Flag) (pdo : FixedPdo) (updates : List Update) :
    (pdo.updateAll updates).flag f = (latest? (Update.switch? f) updates).getD (pdo.flag f) :=
  view_updateAll (fun pdo => pdo.flag f) _ (flag_update f) pdo updates

theorem get_quantity_updateAll (q : Quantity) (pdo : FixedPdo) (updates : List Update) :
    (pdo.updateAll updates).get (.quantity q) =
      ((latest? (Update.amount? q) updates).map (· % q.modulus)).getD (pdo.get (.quantity q)) := by
  rw [← latest?_map]
  exact view_updateAll (fun pdo => pdo.get (.quantity q)) _ (get_quantity_update q) pdo updates

theorem get_updateAll_of_ne {field : Field} (hNe : ∀ u : Update, field ≠ u.field) (pdo : FixedPdo)
    (updates : List Update) : (pdo.updateAll updates).get field = pdo.get field := by
  induction updates generalizing pdo with
  | nil => rfl
  | cons u rest ih => exact (ih (pdo.update u)).trans (get_update_of_ne (hNe u) pdo)

end Runs

theorem fixed_ne_field (u : Update) : Field.fixed ≠ u.field := by
  cases u <;> exact Field.noConfusion

theorem reserved_ne_field (u : Update) : Field.reserved ≠ u.field := by
  cases u <;> exact Field.noConfusion

/-- Two sequences of updates with the same latest value for each field lead to the same object. -/
theorem updateAll_congr (pdo : FixedPdo) {first second : List Update}
    (hFlags : ∀ f, latest? (Update.switch? f) first = latest? (Update.switch? f) second)
    (hQuantities : ∀ q, latest? (Update.amount? q) first = latest? (Update.amount? q) second) :
    pdo.updateAll first = pdo.updateAll second := by
  apply eq_of_get_eq
  intro field
  cases field with
  | fixed => rw [get_updateAll_of_ne fixed_ne_field, get_updateAll_of_ne fixed_ne_field]
  | reserved => rw [get_updateAll_of_ne reserved_ne_field, get_updateAll_of_ne reserved_ne_field]
  | flag f => rw [get_flag, get_flag, flag_updateAll, flag_updateAll, hFlags]
  | quantity q => rw [get_quantity_updateAll, get_quantity_updateAll, hQuantities]

end FixedPdo

/-- Values that are too large lose their high bits without a trace in any other field, and the order
in which different fields are updated does not matter. -/
theorem fields_follow_updates (pdo : FixedPdo) (updates : List FixedPdo.Update) :
    let reached := pdo.updateAll updates
    (∀ f, reached.flag f =
      (latest? (FixedPdo.Update.switch? f) updates).getD (pdo.flag f)) ∧
    (∀ q, reached.get (.quantity q) =
      ((latest? (FixedPdo.Update.amount? q) updates).map (· % q.modulus)).getD
        (pdo.get (.quantity q))) ∧
    reached.get .fixed = pdo.get .fixed ∧
    reached.get .reserved = pdo.get .reserved ∧
    ∀ other : List FixedPdo.Update,
      (∀ f, latest? (FixedPdo.Update.switch? f) other =
        latest? (FixedPdo.Update.switch? f) updates) →
      (∀ q, latest? (FixedPdo.Update.amount? q) other =
        latest? (FixedPdo.Update.amount? q) updates) →
      (pdo.updateAll other).word = reached.word := by
  refine ⟨?_, ?_, ?_, ?_, ?_⟩
  · intro f
    exact FixedPdo.flag_updateAll f pdo updates
  · intro q
    exact FixedPdo.get_quantity_updateAll q pdo updates
  · exact FixedPdo.get_updateAll_of_ne FixedPdo.fixed_ne_field pdo updates
  · exact FixedPdo.get_updateAll_of_ne FixedPdo.reserved_ne_field pdo updates
  · intro other hFlags hQuantities
    exact congrArg FixedPdo.word (pdo.updateAll_congr hFlags hQuantities)

/-- From a word with all bits set: every value is too large for its field, and the voltage is written
twice in one sequence and once in the other. -/
theorem fields_follow_updates_too_large :
    let pdo : FixedPdo := ⟨0xFFFFFFFF⟩
    let updates : List FixedPdo.Update := [.quantity .voltage 0xFFFFFC01, .flag .dualRoleData false,
      .quantity .current 0x400, .quantity .voltage 0x12405, .quantity .fastRoleSwap 6]
    let other : List FixedPdo.Update := [.quantity .fastRoleSwap 6, .quantity .voltage 0x12405,
      .quantity .current 0x400, .flag .dualRoleData false]
    let reached := pdo.updateAll updates
    (∀ f, latest? (FixedPdo.Update.switch? f) other =
        latest? (FixedPdo.Update.switch? f) updates) ∧
      (∀ q, latest? (FixedPdo.Update.amount? q) other =
        latest? (FixedPdo.Update.amount? q) updates) ∧
      reached.flag .dualRoleData = false ∧ reached.flag .dualRolePower = true ∧
      reached.get (.quantity .voltage) = 5 ∧ reached.get (.quantity .current) = 0 ∧
      reached.get (.quantity .fastRoleSwap) = 2 ∧ reached.get .reserved = 7 ∧
      (pdo.updateAll other).word = reached.word := by
  intro pdo updates other reached
  obtain ⟨hFlags, hQuantities, _, hReserved, hOther⟩ := fields_follow_updates pdo updates
  have hSameFlags : ∀ f, latest? (FixedPdo.Update.switch? f) other =
      latest? (FixedPdo.Update.switch? f) updates := by
    intro f
    cases f <;> rfl
  have hSameQuantities : ∀ q, latest? (FixedPdo.Update.amount? q) other =
      latest? (FixedPdo.Update.amount? q) updates := by
    intro q
    cases q <;> rfl
  have hPower : pdo.flag .dualRolePower = true := by decide
  have hReservedBits : pdo.get .reserved = 7 := by decide
  exact ⟨hSameFlags, hSameQuantities, hFlags .dualRoleData, (hFlags .dualRolePower).trans hPower,
    hQuantities .voltage, hQuantities .current, hQuantities .fastRoleSwap,
    hReserved.trans hReservedBits, hOther other hSameFlags hSameQuantities⟩

end PowerSink
