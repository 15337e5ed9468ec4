import HashTunnel.Text.Basic

/-! # UTF-8

Octets are read one at a time. Each scalar value that is complete is one item, and each longest
run of octets that begins a scalar value without completing it, or that begins none, is one item
too. A sequence is UTF-8 when all its items are scalar values (`decode?`); the lossy reading
(`decodeLossy`) puts U+FFFD in place of every other item.
-/

namespace HashTunnel.Utf8

/-- The octets of one scalar value: one below U+0080, two below U+0800, three below U+10000 and
    four from there on. -/
def encodeChar (c : Char) : Bytes :=
  let n := c.toNat
  if n < 0x80 then [UInt8.ofNat n]
  else if n < 0x800 then [UInt8.ofNat (0xC0 + n / 0x40), UInt8.ofNat (0x80 + n % 0x40)]
  else if n < 0x10000 then
    [UInt8.ofNat (0xE0 + n / 0x1000), UInt8.ofNat (0x80 + n / 0x40 % 0x40),
     UInt8.ofNat (0x80 + n % 0x40)]
  else
    [UInt8.ofNat (0xF0 + n / 0x40000), UInt8.ofNat (0x80 + n / 0x1000 % 0x40),
     UInt8.ofNat (0x80 + n / 0x40 % 0x40), UInt8.ofNat (0x80 + n % 0x40)]

/-- The octets of a text. -/
def encode (text : Text) : Bytes :=
  text.flatMap encodeChar

/-- A scalar value that has begun: how many octets it still needs, the bounds of the next one and
    the bits read so far. -/
structure Begun where
  needed : Nat
  low : Nat
  high : Nat
  bits : Nat
  deriving DecidableEq, Repr

/-- What one octet does to the reading. -/
inductive Step where
  /-- The scalar value needs more octets. -/
  | more (state : Begun)
  /-- The scalar value is complete. -/
  | done (c : Char)
  /-- The octet does not fit. -/
  | refused
  deriving DecidableEq, Repr

/-- The octet that begins a scalar value. The bounds of the second octet leave out overlong forms,
    surrogates and what lies above U+10FFFF. -/
def lead (octet : UInt8) : Step :=
  let b := octet.toNat
  if b < 0x80 then .done (Char.ofNat b)
  else if b < 0xC2 then .refused
  else if b < 0xE0 then .more ⟨1, 0x80, 0xBF, b - 0xC0⟩
  else if b = 0xE0 then .more ⟨2, 0xA0, 0xBF, 0⟩
  else if b = 0xED then .more ⟨2, 0x80, 0x9F, 0x0D⟩
  else if b < 0xF0 then .more ⟨2, 0x80, 0xBF, b - 0xE0⟩
  else if b = 0xF0 then .more ⟨3, 0x90, 0xBF, 0⟩
  else if b < 0xF4 then .more ⟨3, 0x80, 0xBF, b - 0xF0⟩
  else if b = 0xF4 then .more ⟨3, 0x80, 0x8F, 4⟩
  else .refused

/-- The next octet of a scalar value that has begun. -/
def Begun.next (state : Begun) (octet : UInt8) : Step :=
  let b := octet.toNat
  if state.low ≤ b ∧ b ≤ state.high then
    let bits := state.bits * 0x40 + (b - 0x80)
    if state.needed ≤ 1 then .done (Char.ofNat bits)
    else .more ⟨state.needed - 1, 0x80, 0xBF, bits⟩
  else .refused

/-- The items of a sequence of octets, where `state` may have begun: a scalar value, or nothing for
    a longest ill-formed run. An octet that does not fit ends the run before it and is read again
    as a beginning. -/
def itemsFrom (state : Option Begun) : Bytes → List (Option Char)
  | [] => if state.isSome then [none] else []
  | octet :: rest =>
    match (state.map fun begun => begun.next octet : Option Step) with
    | some (.more begun) => itemsFrom (some begun) rest
    | some (.done c) => some c :: itemsFrom none rest
    | broken =>
      (if broken.isSome then [none] else []) ++
        match lead octet with
        | .more begun => itemsFrom (some begun) rest
        | .done c => some c :: itemsFrom none rest
        | .refused => none :: itemsFrom none rest

/-- The items of a sequence of octets. -/
def items (octets : Bytes) : List (Option Char) :=
  itemsFrom none octets

/-- The text that the octets encode, if they are UTF-8. -/
def decode? (octets : Bytes) : Option Text :=
  (items octets).mapM id

/-- The text of the octets, with one U+FFFD for each longest ill-formed run. -/
def decodeLossy (octets : Bytes) : Text :=
  (items octets).map (·.getD '\uFFFD')

end HashTunnel.Utf8
