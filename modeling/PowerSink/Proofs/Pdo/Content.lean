import PowerSink.Proofs.Pdo.Updates

/-!
# What a power data object contains

The ten fields lie side by side in the word, so the word is the sum of what they read, each moved to its
place. A word is therefore given by a value for each field, and by no other values, and the setters lead
to it in any order from any word that has the two fields without a setter right.
-/

namespace PowerSink

namespace FixedPdo

namespace Field

/-- Fields from high to low, without a gap, that together cover the bits below `top`. -/
inductive Tiles : List Field → Nat → Prop where
  | nil : Tiles [] 0
  | cons {field : Field} {rest : List Field} (below : Tiles rest field.low) :
    Tiles (field :: rest) (field.low + field.width)

theorem tiles_all : Tiles all 32 :=
  .cons (.cons (.cons (.cons (.cons (.cons (.cons (.cons (.cons (.cons .nil)))))))))

/-- The sum of a value for each field, moved to the place of the field. -/
def weigh (value : Field → Nat) : List Field → Nat
  | [] => 0
  | field :: rest => value field * 2 ^ field.low + weigh value rest

theorem weigh_all (value : Field → Nat) :
    weigh value all =
      value .fixed * 2 ^ 30 + value (.flag .dualRolePower) * 2 ^ 29 +
        value (.flag .higherCapability) * 2 ^ 28 + value (.flag .unconstrainedPower) * 2 ^ 27 +
        value (.flag .usbCommunicationsCapable) * 2 ^ 26 + value (.flag .dualRoleData) * 2 ^ 25 +
        value (.quantity .fastRoleSwap) * 2 ^ 23 + value .reserved * 2 ^ 20 +
        value (.quantity .voltage) * 2 ^ 10 + value (.quantity .current) := by
  simp [all, Flag.all, weigh, low, Nat.add_assoc]

theorem Tiles.weigh_read {fields : List Field} {top : Nat} (hTiles : Tiles fields top)
    (word : UInt32) :
    weigh (fun field => (field.read word).toNat) fields = word.toNat % 2 ^ top := by
  induction hTiles with
  | nil => exact (Nat.mod_one word.toNat).symm
  | @cons field rest _ ih =>
    rw [weigh, ih, toNat_read, Nat.pow_add, Nat.mod_mul, Nat.add_comm, Nat.mul_comm]

theorem weigh_all_read (word : UInt32) :
    weigh (fun field => (field.read word).toNat) all = word.toNat := by
  rw [tiles_all.weigh_read]
  exact Nat.mod_eq_of_lt word.toNat_lt

theorem read_foldr_write {fields : List Field} {field : Field} (hMem : field ∈ fields)
    (value : Field → UInt32) (word : UInt32) :
    field.read (fields.foldr (fun other => other.write (value other)) word) =
      field.clip (value field) := by
  induction fields with
  | nil => cases hMem
  | cons first rest ih =>
    rw [List.foldr_cons]
    by_cases hSame : field = first
    · rw [← hSame]
      exact read_write_self field _ _
    · rw [read_write_of_ne hSame]
      exact ih (List.mem_of_ne_of_mem hSame hMem)

end Field

/-- A value for each field, none too large for it. -/
structure Content where
  fixed : Fin 4
  flag : Flag → Bool
  fastRoleSwap : Fin 4
  reserved : Fin 8
  voltage : Fin 1024
  current : Fin 1024

namespace Content

def number (c : Content) : Nat :=
  c.fixed * 2 ^ 30 + (c.flag .dualRolePower).toNat * 2 ^ 29 +
    (c.flag .higherCapability).toNat * 2 ^ 28 + (c.flag .unconstrainedPower).toNat * 2 ^ 27 +
    (c.flag .usbCommunicationsCapable).toNat * 2 ^ 26 + (c.flag .dualRoleData).toNat * 2 ^ 25 +
    c.fastRoleSwap * 2 ^ 23 + c.reserved * 2 ^ 20 + c.voltage * 2 ^ 10 + c.current

def amount (c : Content) : Quantity → Nat
  | .fastRoleSwap => c.fastRoleSwap
  | .voltage => c.voltage
  | .current => c.current

def value (c : Content) : Field → Nat
  | .fixed => c.fixed
  | .reserved => c.reserved
  | .flag f => (c.flag f).toNat
  | .quantity q => c.amount q

/-- One update for each field that has a setter. -/
def updates (c : Content) : List Update :=
  Flag.all.map (fun f => .flag f (c.flag f)) ++
    Quantity.all.map fun q => .quantity q (UInt32.ofNat (c.amount q))

theorem value_lt (c : Content) (field : Field) : c.value field < 2 ^ field.width := by
  cases field with
  | fixed => exact c.fixed.isLt
  | reserved => exact c.reserved.isLt
  | flag f => exact Bool.toNat_lt (c.flag f)
  | quantity q =>
    cases q with
    | fastRoleSwap => exact c.fastRoleSwap.isLt
    | voltage => exact c.voltage.isLt
    | current => exact c.current.isLt

theorem eq_of_value_eq {a b : Content} (hValue : ∀ field, a.value field = b.value field) :
    a = b := by
  have hFlag : a.flag = b.flag := by
    funext f
    have hBit : (a.flag f).toNat = (b.flag f).toNat := hValue (.flag f)
    revert hBit
    cases a.flag f <;> cases b.flag f <;> decide
  cases a
  cases b
  congr
  · exact Fin.ext (hValue .fixed)
  · exact Fin.ext (hValue (.quantity .fastRoleSwap))
  · exact Fin.ext (hValue .reserved)
  · exact Fin.ext (hValue (.quantity .voltage))
  · exact Fin.ext (hValue (.quantity .current))

theorem number_eq (c : Content) : c.number = Field.weigh c.value Field.all := by
  rw [Field.weigh_all]
  rfl

end Content

theorem toNat_get_lt (pdo : FixedPdo) (field : Field) : (pdo.get field).toNat < 2 ^ field.width :=
  field.toNat_read_lt pdo.word

/-- What all getters return. -/
def content (pdo : FixedPdo) : Content where
  fixed := ⟨(pdo.get .fixed).toNat, pdo.toNat_get_lt .fixed⟩
  flag := pdo.flag
  fastRoleSwap := ⟨(pdo.get (.quantity .fastRoleSwap)).toNat, pdo.toNat_get_lt (.quantity .fastRoleSwap)⟩
  reserved := ⟨(pdo.get .reserved).toNat, pdo.toNat_get_lt .reserved⟩
  voltage := ⟨pdo.voltage.toNat, pdo.toNat_get_lt (.quantity .voltage)⟩
  current := ⟨pdo.current.toNat, pdo.toNat_get_lt (.quantity .current)⟩

theorem value_content (pdo : FixedPdo) (field : Field) :
    pdo.content.value field = (pdo.get field).toNat := by
  cases field with
  | fixed => rfl
  | reserved => rfl
  | flag f =>
    rw [get_flag]
    change (pdo.flag f).toNat = _
    cases pdo.flag f <;> rfl
  | quantity q => cases q <;> rfl

theorem content_eq_iff {pdo : FixedPdo} {c : Content} :
    pdo.content = c ↔ ∀ field, (pdo.get field).toNat = c.value field := by
  constructor
  · rintro rfl field
    exact (pdo.value_content field).symm
  · intro hGet
    exact Content.eq_of_value_eq fun field => (pdo.value_content field).trans (hGet field)

/-- The word is the sum of its fields. -/
theorem number_content (pdo : FixedPdo) : pdo.content.number = pdo.word.toNat := by
  have hValue : pdo.content.value = fun field => (field.read pdo.word).toNat :=
    funext pdo.value_content
  rw [Content.number_eq, hValue, Field.weigh_all_read]

theorem exists_content (c : Content) : ∃ pdo : FixedPdo, pdo.content = c := by
  let word := Field.all.foldr (fun field => field.write (UInt32.ofNat (c.value field))) 0
  refine ⟨⟨word⟩, content_eq_iff.mpr fun field => ?_⟩
  have hRead : field.read word = _ := Field.read_foldr_write field.mem_all _ 0
  rw [get, hRead, Field.toNat_clip_ofNat field (c.value_lt field)]

theorem content_injective : Function.Injective content := by
  intro a b hSame
  have hNumber : a.word.toNat = b.word.toNat := by
    rw [← number_content, ← number_content, hSame]
  exact congrArg FixedPdo.mk (UInt32.toNat_inj.mp hNumber)

theorem content_eq_iff_number {pdo : FixedPdo} {c : Content} :
    pdo.content = c ↔ pdo.word.toNat = c.number := by
  -- No sum is taken apart: some word reads as these values, and its number is their sum.
  obtain ⟨other, rfl⟩ := exists_content c
  rw [number_content, content_injective.eq_iff, UInt32.toNat_inj]
  exact ⟨congrArg word, fun h => congrArg FixedPdo.mk h⟩

namespace Content

theorem mem_updates {c : Content} {u : Update} :
    u ∈ c.updates ↔ (∃ f, u = .flag f (c.flag f)) ∨
      ∃ q, u = .quantity q (UInt32.ofNat (c.amount q)) := by
  have hFlags : ∀ f, f ∈ Flag.all := fun f => by cases f <;> decide
  have hQuantities : ∀ q, q ∈ Quantity.all := fun q => by cases q <;> decide
  simp [updates, hFlags, hQuantities, eq_comm]

theorem latest?_switch {c : Content} {order : List Update} (hOrder : order.Perm c.updates) (f : Flag) :
    latest? (Update.switch? f) order = some (c.flag f) := by
  apply latest?_eq_some
  · refine ⟨.flag f (c.flag f), hOrder.mem_iff.mpr (mem_updates.mpr (.inl ⟨f, rfl⟩)), ?_⟩
    exact if_pos rfl
  · intro u hu on hOn
    rcases mem_updates.mp (hOrder.mem_iff.mp hu) with ⟨g, rfl⟩ | ⟨q, rfl⟩
    · obtain ⟨rfl, hSame⟩ := Option.ite_none_right_eq_some.mp hOn
      exact (Option.some.inj hSame).symm
    · cases hOn

theorem latest?_amount {c : Content} {order : List Update} (hOrder : order.Perm c.updates) (q : Quantity) :
    latest? (Update.amount? q) order = some (UInt32.ofNat (c.amount q)) := by
  apply latest?_eq_some
  · refine ⟨.quantity q _, hOrder.mem_iff.mpr (mem_updates.mpr (.inr ⟨q, rfl⟩)), ?_⟩
    exact if_pos rfl
  · intro u hu value hValue
    rcases mem_updates.mp (hOrder.mem_iff.mp hu) with ⟨f, rfl⟩ | ⟨r, rfl⟩
    · cases hValue
    · obtain ⟨rfl, hSame⟩ := Option.ite_none_right_eq_some.mp hValue
      exact (Option.some.inj hSame).symm

end Content

theorem content_updateAll {start : FixedPdo} {order : List Update} {c : Content}
    (hFixed : start.content.fixed = c.fixed) (hReserved : start.content.reserved = c.reserved)
    (hOrder : order.Perm c.updates) : (start.updateAll order).content = c := by
  apply content_eq_iff.mpr
  intro field
  cases field with
  | fixed =>
    rw [get_updateAll_of_ne fixed_ne_field]
    exact congrArg Fin.val hFixed
  | reserved =>
    rw [get_updateAll_of_ne reserved_ne_field]
    exact congrArg Fin.val hReserved
  | flag f =>
    rw [← value_content]
    change ((start.updateAll order).flag f).toNat = (c.flag f).toNat
    rw [flag_updateAll, Content.latest?_switch hOrder, Option.getD_some]
  | quantity q =>
    rw [get_quantity_updateAll, Content.latest?_amount hOrder, Option.map_some, Option.getD_some,
      ← clip_quantity]
    exact Field.toNat_clip_ofNat _ (c.value_lt (.quantity q))

end FixedPdo

/-- The getters take a word apart without loss and the setters put it together. -/
theorem fields_partition_word :
    (∀ pdo : FixedPdo, pdo.word.toNat = pdo.content.number ∧
      ∀ field, (pdo.get field).toNat < 2 ^ field.width) ∧
    (∀ c : FixedPdo.Content,
      c.number < 2 ^ 32 ∧
      (∀ pdo : FixedPdo, pdo.content = c ↔ pdo.word.toNat = c.number) ∧
      ∀ (start : FixedPdo) (order : List FixedPdo.Update), start.content.fixed = c.fixed →
        start.content.reserved = c.reserved → order.Perm c.updates →
        (start.updateAll order).word.toNat = c.number) ∧
    Function.Injective FixedPdo.content := by
  refine ⟨?_, ?_, FixedPdo.content_injective⟩
  · intro pdo
    exact ⟨pdo.number_content.symm, pdo.toNat_get_lt⟩
  · intro c
    refine ⟨?_, fun _ => FixedPdo.content_eq_iff_number, ?_⟩
    · obtain ⟨pdo, rfl⟩ := FixedPdo.exists_content c
      rw [FixedPdo.number_content]
      exact pdo.word.toNat_lt
    · intro start order hFixed hReserved hOrder
      exact FixedPdo.content_eq_iff_number.mp (FixedPdo.content_updateAll hFixed hReserved hOrder)

/-- All flags but one, odd quantities, and the setters from back to front on a word that has the wrong
flags and quantities but the right supply type and reserved bits. -/
theorem fields_partition_word_backwards :
    let c : FixedPdo.Content :=
      { fixed := 2, flag := fun f => f ≠ .unconstrainedPower, fastRoleSwap := 1, reserved := 5,
        voltage := 1023, current := 300 }
    let start : FixedPdo := ⟨0x88500001⟩
    start.content.fixed = c.fixed ∧ start.content.reserved = c.reserved ∧
      c.updates.reverse.Perm c.updates ∧
      (start.updateAll c.updates.reverse).word.toNat = c.number ∧ c.number = 0xB6DFFD2C := by
  intro c start
  obtain ⟨_, hContents, _⟩ := fields_partition_word
  obtain ⟨_, _, hUpdates⟩ := hContents c
  have hFixed : start.content.fixed = c.fixed := by decide
  have hReserved : start.content.reserved = c.reserved := by decide
  have hOrder : c.updates.reverse.Perm c.updates := List.reverse_perm _
  exact ⟨hFixed, hReserved, hOrder, hUpdates start _ hFixed hReserved hOrder, by decide⟩

end PowerSink
