import Symbolizer.Memory
import Symbolizer.Proofs.DebugLink.Layout

/-!
Reads from a snapshot. A read succeeds exactly when its bytes lie between the base and the end of the snapshot,
told by sums of numbers in which nothing wraps, and gives the number whose digits to the base 256 they are. A
snapshot of words gives each word back at its address.
-/

namespace Symbolizer

namespace Bytes

theorem between?_eq_some_iff {data bytes : Bytes} {start stop : Nat} :
    data.between? start stop = some bytes ↔
      start ≤ stop ∧ stop ≤ data.length ∧ bytes = (data.drop start).take (stop - start) := by
  rw [between?, Option.ite_none_right_eq_some, Option.some.injEq, and_assoc, eq_comm (a := bytes)]

theorem littleEndian_eq_ofDigits (bytes : Bytes) :
    littleEndian bytes = Nat.ofDigits 256 (bytes.map UInt8.toNat) := by
  induction bytes with
  | nil => rfl
  | cons byte rest ih =>
    rw [littleEndian, ih, List.map_cons, Nat.ofDigits_cons]

theorem littleEndian_append_zeros (bytes : Bytes) (count : Nat) :
    littleEndian (bytes ++ List.replicate count 0) = littleEndian bytes := by
  have zeros : (List.replicate count (0 : UInt8)).map UInt8.toNat = List.replicate count 0 :=
    List.map_replicate
  rw [littleEndian_eq_ofDigits, littleEndian_eq_ofDigits, List.map_append, zeros,
    Nat.ofDigits_append_replicate_zero]

end Bytes

namespace Snapshot

variable {snapshot : Snapshot} {address base : Address} {bytes : Bytes} {words : List UInt64}

structure Covers (snapshot : Snapshot) (address : Address) : Prop where
  above : snapshot.base.value.toNat ≤ address.value.toNat
  inside : address.value.toNat - snapshot.base.value.toNat + snapshot.pointerSize ≤ snapshot.bytes.length

def pointerAt (snapshot : Snapshot) (address : Address) : Bytes :=
  (snapshot.bytes.drop (address.value.toNat - snapshot.base.value.toNat)).take snapshot.pointerSize

/-! A read. -/

/-- The sums of words say what those of numbers say, since no byte string reaches behind the last word. -/
theorem pointerBytes?_eq_some_iff (held : snapshot.bytes.length < UInt64.size) :
    snapshot.pointerBytes? address = some bytes ↔
      snapshot.Covers address ∧ bytes = snapshot.pointerAt address := by
  have order : snapshot.base ≤ address ↔ snapshot.base.value.toNat ≤ address.value.toNat :=
    UInt64.le_iff_toNat_le
  have distance (above : snapshot.base ≤ address) :
      (address.value - snapshot.base.value).toNat = address.value.toNat - snapshot.base.value.toNat :=
    UInt64.toNat_sub_of_le _ _ above
  have sum (start : UInt64) (within : start.toNat + snapshot.pointerSize < UInt64.size) :
      (start + UInt64.ofNat snapshot.pointerSize).toNat = start.toNat + snapshot.pointerSize := by
    rw [UInt64.toNat_add, UInt64.toNat_ofNat', Nat.add_mod_mod]
    exact Nat.mod_eq_of_lt within
  have opened : snapshot.pointerBytes? address = some bytes ↔
      snapshot.base ≤ address ∧
        (address.value - snapshot.base.value).toNat + snapshot.pointerSize < UInt64.size ∧
        snapshot.bytes.between? (address.value - snapshot.base.value).toNat
          (address.value - snapshot.base.value + UInt64.ofNat snapshot.pointerSize).toNat = some bytes := by
    simp only [pointerBytes?, guard, Option.bind_eq_bind, Option.bind_eq_some_iff]
    simp
  rw [opened, Bytes.between?_eq_some_iff]
  constructor
  · rintro ⟨above, within, -, inside, cut⟩
    rw [sum _ within, distance above] at inside cut
    rw [Nat.add_sub_cancel_left] at cut
    exact ⟨⟨order.1 above, inside⟩, cut⟩
  · rintro ⟨⟨above, inside⟩, cut⟩
    have reached := order.2 above
    have within : (address.value - snapshot.base.value).toNat + snapshot.pointerSize < UInt64.size := by
      rw [distance reached]
      omega
    refine ⟨reached, within, ?_⟩
    rw [sum _ within, distance reached, Nat.add_sub_cancel_left]
    exact ⟨Nat.le_add_right _ _, inside, cut⟩

theorem length_pointerAt (covers : snapshot.Covers address) :
    (snapshot.pointerAt address).length = snapshot.pointerSize := by
  have inside := covers.inside
  rw [pointerAt, List.length_take, List.length_drop]
  omega

theorem toNat_wordOf (few : bytes.length ≤ 8) : (wordOf bytes).toNat = Bytes.littleEndian bytes := by
  have bound : Bytes.littleEndian bytes < 2 ^ 64 :=
    Nat.lt_of_lt_of_le (Dwarf.Read.littleEndian_lt bytes) (Nat.pow_le_pow_right (by decide) few)
  rw [wordOf, Bytes.littleEndian_append_zeros, UInt64.toNat_ofNat', Nat.mod_eq_of_lt bound]

theorem read_of_covers (held : snapshot.bytes.length < UInt64.size) (covers : snapshot.Covers address) :
    snapshot.read address = .ok (wordOf (snapshot.pointerAt address)) := by
  rw [read, (pointerBytes?_eq_some_iff held).2 ⟨covers, rfl⟩]

theorem read_of_not_covers (held : snapshot.bytes.length < UInt64.size) (outside : ¬snapshot.Covers address) :
    snapshot.read address = .error (.unreadableMemory address) := by
  have none : snapshot.pointerBytes? address = none := by
    rw [Option.eq_none_iff_forall_ne_some]
    intro bytes found
    exact outside ((pointerBytes?_eq_some_iff held).1 found).1
  rw [read, none]

theorem toNat_of_read (held : snapshot.bytes.length < UInt64.size) (most : snapshot.pointerSize ≤ 8)
    {value : UInt64} (answered : snapshot.read address = .ok value) :
    value.toNat = Nat.ofDigits 256 ((snapshot.pointerAt address).map UInt8.toNat) ∧
      value.toNat < 2 ^ (8 * snapshot.pointerSize) := by
  by_cases covers : snapshot.Covers address
  · rw [read_of_covers held covers, Except.ok.injEq] at answered
    have length := length_pointerAt covers
    have bound := Dwarf.Read.littleEndian_lt (snapshot.pointerAt address)
    rw [length, show (256 : Nat) = 2 ^ 8 from rfl, ← Nat.pow_mul] at bound
    rw [← answered, toNat_wordOf (by omega), ← Bytes.littleEndian_eq_ofDigits]
    exact ⟨rfl, bound⟩
  · rw [read_of_not_covers held covers] at answered
    cases answered

/-! Snapshots of words. -/

theorem length_bytes_ofWords (base : Address) (words : List UInt64) :
    (ofWords base words).bytes.length = 8 * words.length := by
  simp [ofWords, Bytes.length_ofNat, Nat.mul_comm]

theorem word_of_flatMap {index : Nat} (inside : index < words.length) :
    ((words.flatMap fun word => Bytes.ofNat 8 word.toNat).drop (8 * index)).take 8 =
      Bytes.ofNat 8 words[index].toNat := by
  induction words generalizing index with
  | nil => exact absurd inside (Nat.not_lt_zero _)
  | cons word rest ih =>
    have width := Bytes.length_ofNat 8 word.toNat
    rw [List.flatMap_cons]
    cases index with
    | zero => exact List.take_left' width
    | succ index =>
      have place : 8 * (index + 1) = (Bytes.ofNat 8 word.toNat).length + 8 * index := by omega
      rw [place, List.drop_length_add_append]
      exact ih (Nat.lt_of_succ_lt_succ inside)

theorem covers_ofWords_iff :
    (ofWords base words).Covers address ↔ base.value.toNat ≤ address.value.toNat ∧
      address.value.toNat - base.value.toNat + 8 ≤ 8 * words.length := by
  rw [← length_bytes_ofWords base words]
  exact ⟨fun covers => ⟨covers.above, covers.inside⟩, fun ⟨above, inside⟩ => ⟨above, inside⟩⟩

theorem read_ofWords (held : 8 * words.length < UInt64.size) {index : Nat} (inside : index < words.length)
    (below : base.value.toNat + 8 * index < UInt64.size) :
    (ofWords base words).read (Address.ofNat (base.value.toNat + 8 * index)) = .ok words[index] := by
  have place : (Address.ofNat (base.value.toNat + 8 * index)).value.toNat = base.value.toNat + 8 * index :=
    UInt64.toNat_ofNat_of_lt' below
  have covers : (ofWords base words).Covers (Address.ofNat (base.value.toNat + 8 * index)) :=
    covers_ofWords_iff.2 (by omega)
  have cut : (ofWords base words).pointerAt (Address.ofNat (base.value.toNat + 8 * index)) =
      Bytes.ofNat 8 words[index].toNat := by
    rw [pointerAt, place]
    show List.take 8 (List.drop (base.value.toNat + 8 * index - base.value.toNat) _) = _
    rw [Nat.add_sub_cancel_left]
    exact word_of_flatMap inside
  rw [read_of_covers (by rwa [length_bytes_ofWords]) covers, cut, Except.ok.injEq, ← UInt64.toNat_inj,
    toNat_wordOf (Nat.le_of_eq (Bytes.length_ofNat 8 _)), Bytes.littleEndian_ofNat words[index].toNat_lt]

theorem make_of_size {size : Nat} (least : 1 ≤ size) (most : size ≤ 8) (base : Address) (bytes : Bytes) :
    make base bytes size = .ok ⟨base, bytes, size⟩ := by
  rw [make, if_pos ⟨least, most⟩]

/-- Every snapshot with pointers of one to eight bytes can be made. A read from it succeeds exactly when its bytes
lie within the snapshot; the value is the little-endian number of these bytes and no larger than they allow, and a
failure names the address. Words come back at their addresses, and none is read that starts below the base or
reaches behind the end. A byte string in memory has a length that is a word. -/
theorem read_exact :
    (∀ snapshot : Snapshot, 1 ≤ snapshot.pointerSize → snapshot.pointerSize ≤ 8 →
      snapshot.bytes.length < UInt64.size →
      make snapshot.base snapshot.bytes snapshot.pointerSize = .ok snapshot ∧
      ∀ address : Address,
        ((∃ value, snapshot.read address = .ok value) ↔ snapshot.Covers address) ∧
        (∀ value, snapshot.read address = .ok value →
          value.toNat = Nat.ofDigits 256 ((snapshot.pointerAt address).map UInt8.toNat) ∧
            value.toNat < 2 ^ (8 * snapshot.pointerSize)) ∧
        (¬snapshot.Covers address → snapshot.read address = .error (.unreadableMemory address))) ∧
    ∀ (base : Address) (words : List UInt64), 8 * words.length < UInt64.size →
      (∀ index (inside : index < words.length), base.value.toNat + 8 * index < UInt64.size →
        (ofWords base words).read (Address.ofNat (base.value.toNat + 8 * index)) = .ok words[index]) ∧
      ∀ address : Address, address.value.toNat < base.value.toNat ∨
          base.value.toNat + 8 * words.length < address.value.toNat + 8 →
        (ofWords base words).read address = .error (.unreadableMemory address) := by
  constructor
  · intro snapshot least most held
    refine ⟨make_of_size least most _ _, fun address => ⟨?_, fun value => toNat_of_read held most,
      read_of_not_covers held⟩⟩
    constructor
    · rintro ⟨value, answered⟩
      by_contra outside
      rw [read_of_not_covers held outside] at answered
      cases answered
    · exact fun covers => ⟨_, read_of_covers held covers⟩
  · intro base words held
    refine ⟨fun index inside below => read_ofWords held inside below, fun address outside => ?_⟩
    refine read_of_not_covers (by rwa [length_bytes_ofWords]) fun covers => ?_
    have bounds := covers_ofWords_iff.1 covers
    omega

def summit : Snapshot :=
  ⟨⟨0xfffffffffffffffb⟩, [0x78, 0x56, 0x34, 0x12, 0xff], 4⟩

/-- Two pointers can be read there and a third cannot. The sum of its address and its size wraps. -/
theorem read_exact_summit :
    (1 ≤ summit.pointerSize ∧ summit.pointerSize ≤ 8 ∧ summit.bytes.length < UInt64.size) ∧
      (∃ value, summit.read ⟨0xfffffffffffffffb⟩ = .ok value ∧
        value.toNat = Nat.ofDigits 256 [0x78, 0x56, 0x34, 0x12]) ∧
      summit.read ⟨0xfffffffffffffffd⟩ = .error (.unreadableMemory ⟨0xfffffffffffffffd⟩) ∧
      8 * [0x11, 0x22].length < UInt64.size ∧
      (ofWords ⟨0x7000⟩ [0x11, 0x22]).read (Address.ofNat 0x7008) = .ok 0x22 ∧
      (ofWords ⟨0x7000⟩ [0x11, 0x22]).read ⟨0x700c⟩ = .error (.unreadableMemory ⟨0x700c⟩) := by
  have least : 1 ≤ summit.pointerSize := by decide
  have most : summit.pointerSize ≤ 8 := by decide
  have held : summit.bytes.length < UInt64.size := by decide
  have few : 8 * [0x11, 0x22].length < UInt64.size := by decide
  obtain ⟨-, reads⟩ := read_exact.1 summit least most held
  obtain ⟨value, answered⟩ := (reads ⟨0xfffffffffffffffb⟩).1.2 ⟨by decide, by decide⟩
  have number := ((reads _).2.1 value answered).1
  have outside : ¬summit.Covers ⟨0xfffffffffffffffd⟩ := fun covers => absurd covers.inside (by decide)
  obtain ⟨back, missing⟩ := read_exact.2 ⟨0x7000⟩ [0x11, 0x22] few
  exact ⟨⟨least, most, held⟩, ⟨value, answered, number⟩, (reads _).2.2 outside, few,
    back 1 (by decide) (by decide), missing ⟨0x700c⟩ (.inr (by decide))⟩

end Snapshot

end Symbolizer
