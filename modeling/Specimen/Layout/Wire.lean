import Specimen.Layout.Basic
import Specimen.Stream

/-!
# Values on the wire

A generated program writes a value without any framing: an integer as
its four bytes, the lowest first, and a tuple as its items one after
another. Only someone who knows the layout can read it back, and
`Layout.read` does: it takes exactly the bytes of one value and leaves
what follows.

A stream that has ended before a value begins gives none. Ending inside
an integer or between two fields is an error; a product without fields
takes nothing, so it is there even when the stream has ended.
-/

namespace Specimen

/-- The four bytes of an integer, the lowest first. -/
def encodeInt (n : Int32) : List UInt8 :=
  let w := n.toUInt32.toNat
  [UInt8.ofNat w, UInt8.ofNat (w / 0x100), UInt8.ofNat (w / 0x10000), UInt8.ofNat (w / 0x1000000)]

/-- The integer of four bytes, the lowest first. -/
def decodeInt (a b c d : UInt8) : Int32 :=
  (UInt32.ofNat (a.toNat + 0x100 * (b.toNat + 0x100 * (c.toNat + 0x100 * d.toNat)))).toInt32

/-- The bytes of an integer read back as it. -/
theorem decodeInt_encodeInt (n : Int32) :
    decodeInt (UInt8.ofNat n.toUInt32.toNat) (UInt8.ofNat (n.toUInt32.toNat / 0x100))
      (UInt8.ofNat (n.toUInt32.toNat / 0x10000)) (UInt8.ofNat (n.toUInt32.toNat / 0x1000000)) = n := by
  have h : n.toUInt32.toNat < 0x100000000 := UInt32.toNat_lt n.toUInt32
  have e : UInt32.ofNat ((UInt8.ofNat n.toUInt32.toNat).toNat
      + 0x100 * ((UInt8.ofNat (n.toUInt32.toNat / 0x100)).toNat
        + 0x100 * ((UInt8.ofNat (n.toUInt32.toNat / 0x10000)).toNat
          + 0x100 * (UInt8.ofNat (n.toUInt32.toNat / 0x1000000)).toNat))) = n.toUInt32 := by
    apply UInt32.toNat_inj.mp
    simp only [UInt32.toNat_ofNat', UInt8.toNat_ofNat']
    omega
  unfold decodeInt
  rw [e]
  exact n.toInt32_toUInt32

/-- Any four bytes are those of the integer they read as. -/
theorem encodeInt_decodeInt (a b c d : UInt8) : encodeInt (decodeInt a b c d) = [a, b, c, d] := by
  have ha := a.toNat_lt
  have hb := b.toNat_lt
  have hc := c.toNat_lt
  have hd := d.toNat_lt
  have e : (decodeInt a b c d).toUInt32.toNat
      = a.toNat + 0x100 * (b.toNat + 0x100 * (c.toNat + 0x100 * d.toNat)) := by
    rw [decodeInt, UInt32.toUInt32_toInt32, UInt32.toNat_ofNat']
    omega
  simp only [encodeInt, e, List.cons.injEq, and_true]
  refine ⟨?_, ?_, ?_, ?_⟩ <;>
    · apply UInt8.toNat_inj.mp
      rw [UInt8.toNat_ofNat']
      omega

namespace Value

mutual

/-- **The bytes of a value.** -/
def encode : Value → List UInt8
  | .int n => encodeInt n
  | .tuple items => encodeItems items

/-- The bytes of values one after another. -/
def encodeItems : List Value → List UInt8
  | [] => []
  | v :: rest => encode v ++ encodeItems rest

end

end Value

namespace Layout

mutual

/-- How many bytes a value of a layout takes. -/
def width : Layout → Nat
  | .int => 4
  | .product _ fields => fieldsWidth fields

/-- How many bytes the values of fields take. -/
def fieldsWidth : List LayoutField → Nat
  | [] => 0
  | ⟨_, layout⟩ :: rest => layout.width + fieldsWidth rest

end

/-- Reads an integer. -/
def readInt (s : Stream) : Except Error (Option Value) × Stream :=
  match s.readExact 4 with
  | (.ok (some [a, b, c, d]), rest) => (.ok (some (.int (decodeInt a b c d))), rest)
  | (.ok _, rest) => (.ok none, rest)
  | (.error e, rest) => (.error e, rest)

mutual

/-- **Reads one value of a layout.** -/
def read : Layout → Stream → Except Error (Option Value) × Stream
  | .int, s => readInt s
  | .product name fields, s => readFields (label name) fields.length [] fields s

/-- Reads the values of fields behind those already read, latest
first. -/
def readFields (product : String) (total : Nat) (done : List Value) :
    List LayoutField → Stream → Except Error (Option Value) × Stream
  | [], s => (.ok (some (.tuple done.reverse)), s)
  | ⟨_, layout⟩ :: rest, s =>
    match layout.read s with
    | (.ok (some v), s) => readFields product total (v :: done) rest s
    | (.ok none, s) =>
      if done.isEmpty then (.ok none, s)
      else (.error (.incompleteProduct product done.length total), s)
    | (.error e, s) => (.error e, s)

end

end Layout

end Specimen
