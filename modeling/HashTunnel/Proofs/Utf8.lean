import HashTunnel.Text.Utf8
import Mathlib

/-! # Reading back what was written

The machine that reads octets comes to a scalar value over the octets that write it and over no others
(`items_encodeChar`, `exists_eq_encodeChar`), so a sequence is UTF-8 exactly if it is a text written down
(`decode?_eq_some_iff`).
-/

namespace HashTunnel.Utf8

theorem toNat_lt (c : Char) : c.toNat < 0x110000 := by
  rcases c.valid with below | ⟨-, below⟩
  · exact Nat.lt_trans below (by decide)
  · exact below

theorem encodeChar_eq_utf8EncodeChar (c : Char) : encodeChar c = String.utf8EncodeChar c := by
  have below := toNat_lt c
  have value : c.val.toNat = c.toNat := rfl
  unfold encodeChar String.utf8EncodeChar
  simp only [value, ← Nat.lt_add_one_iff, Nat.reduceAdd]
  -- Below the bound of its case, no bits of the value are lost in the first octet.
  split_ifs with one two three
  · rfl
  · rw [Nat.mod_eq_of_lt (show c.toNat / 0x40 < 0x20 by omega)]
    simp only [Nat.add_comm]
  · rw [Nat.mod_eq_of_lt (show c.toNat / 0x1000 < 0x10 by omega)]
    simp only [Nat.add_comm]
  · rw [Nat.mod_eq_of_lt (show c.toNat / 0x40000 < 0x08 by omega)]
    simp only [Nat.add_comm]

/-- The octets of a text are those that strings have in memory. -/
theorem encode_eq_utf8Encode (text : Text) : encode text = text.utf8Encode.data.toList := by
  rw [encode, List.utf8Encode, List.toList_data_toByteArray]
  exact List.flatMap_congr fun c _ => encodeChar_eq_utf8EncodeChar c

theorem items_cons (octet : UInt8) (rest : Bytes) :
    items (octet :: rest) =
      match lead octet with
      | .more begun => itemsFrom (some begun) rest
      | .done c => some c :: items rest
      | .refused => none :: items rest := by
  rw [items, itemsFrom]
  simp only [Option.map_none, Option.isSome_none, Bool.false_eq_true, if_false, List.nil_append]
  rfl

theorem itemsFrom_cons (begun : Begun) (octet : UInt8) (rest : Bytes) :
    itemsFrom (some begun) (octet :: rest) =
      match begun.next octet with
      | .more next => itemsFrom (some next) rest
      | .done c => some c :: items rest
      | .refused => none :: items (octet :: rest) := by
  rw [items_cons, itemsFrom, Option.map_some]
  cases begun.next octet with
  | more next => rfl
  | done c => rfl
  | refused => rfl

theorem itemsFrom_ne_nil (begun : Begun) (octets : Bytes) : itemsFrom (some begun) octets ≠ [] := by
  induction octets generalizing begun with
  | nil => simp [itemsFrom]
  | cons octet rest ih =>
    rw [itemsFrom_cons]
    cases begun.next octet with
    | more next => exact ih next
    | done c => exact List.cons_ne_nil _ _
    | refused => exact List.cons_ne_nil _ _

theorem items_eq_nil_iff {octets : Bytes} : items octets = [] ↔ octets = [] := by
  cases octets with
  | nil => simp [items, itemsFrom]
  | cons octet rest =>
    rw [items_cons]
    cases lead octet with
    | more begun => simp [itemsFrom_ne_nil begun rest]
    | done c => simp
    | refused => simp

/-- The octet with the six bits of a scalar value that stand above its last `count` ones of six. -/
def sextet (n count : Nat) : UInt8 :=
  UInt8.ofNat (0x80 + n / 0x40 ^ count % 0x40)

/-- The last `count` octets of a scalar value. -/
def continuation (n : Nat) : Nat → Bytes
  | 0 => []
  | count + 1 => sextet n count :: continuation n count

theorem toNat_sextet (n count : Nat) : (sextet n count).toNat = 0x80 + n / 0x40 ^ count % 0x40 := by
  rw [sextet, UInt8.toNat_ofNat']
  omega

/-- Holds of the scalar values that a reading can still come to: they begin with the bits read so far, and their next
    octet is within its bounds. -/
def Begun.Fits (begun : Begun) (n : Nat) : Prop :=
  n / 0x40 ^ begun.needed = begun.bits ∧ begun.low ≤ (sextet n (begun.needed - 1)).toNat ∧
    (sextet n (begun.needed - 1)).toNat ≤ begun.high

/-- Holds of the readings that come to scalar values and to nothing else. -/
structure Begun.Sound (begun : Begun) : Prop where
  needed : 1 ≤ begun.needed
  low : 0x80 ≤ begun.low
  high : begun.high ≤ 0xBF
  valid : ∀ n, begun.Fits n → n.isValidChar

theorem div_pow_pred {n needed : Nat} (more : 1 ≤ needed) : n / 0x40 ^ needed = n / 0x40 ^ (needed - 1) / 0x40 := by
  obtain ⟨count, rfl⟩ := Nat.exists_eq_add_of_le' more
  rw [Nat.add_sub_cancel, pow_succ, Nat.div_div_eq_div_mul]

theorem Begun.Fits.next {begun : Begun} {n : Nat} (more : 1 ≤ begun.needed) (fits : begun.Fits n) :
    begun.next (sextet n (begun.needed - 1)) =
      if begun.needed ≤ 1 then .done (Char.ofNat (n / 0x40 ^ (begun.needed - 1)))
      else .more ⟨begun.needed - 1, 0x80, 0xBF, n / 0x40 ^ (begun.needed - 1)⟩ := by
  obtain ⟨start, low, high⟩ := fits
  have bits : begun.bits * 0x40 + ((sextet n (begun.needed - 1)).toNat - 0x80) = n / 0x40 ^ (begun.needed - 1) := by
    rw [toNat_sextet, ← start, div_pow_pred more]
    omega
  simp only [Begun.next, low, high, and_self, if_true, bits]

theorem fits_more (n count : Nat) : Begun.Fits ⟨count, 0x80, 0xBF, n / 0x40 ^ count⟩ n := by
  refine ⟨rfl, ?_, ?_⟩
  · change 0x80 ≤ (sextet n (count - 1)).toNat
    rw [toNat_sextet]
    omega
  · change (sextet n (count - 1)).toNat ≤ 0xBF
    rw [toNat_sextet]
    omega

/-- The octets of a scalar value lead the machine to it. -/
theorem itemsFrom_continuation {begun : Begun} {c : Char} {count : Nat} (needed : begun.needed = count + 1)
    (fits : begun.Fits c.toNat) (rest : Bytes) :
    itemsFrom (some begun) (continuation c.toNat (count + 1) ++ rest) = some c :: items rest := by
  induction count generalizing begun with
  | zero =>
    have read := fits.next needed.ge
    rw [needed] at read
    rw [continuation, continuation, List.singleton_append, itemsFrom_cons]
    simp only [Nat.zero_add, Nat.sub_self] at read
    rw [read]
    simp
  | succ count ih =>
    have read := fits.next (by omega)
    rw [needed, Nat.add_sub_cancel] at read
    rw [continuation, List.cons_append, itemsFrom_cons, read, if_neg (by omega)]
    exact ih rfl (fits_more c.toNat (count + 1))

theorem Begun.Sound.fits_of_next {begun : Begun} {octet : UInt8} {n : Nat} (sound : begun.Sound)
    (low : begun.low ≤ octet.toNat) (high : octet.toNat ≤ begun.high)
    (bits : n / 0x40 ^ (begun.needed - 1) = begun.bits * 0x40 + (octet.toNat - 0x80)) :
    begun.Fits n ∧ sextet n (begun.needed - 1) = octet := by
  have least := sound.low
  have greatest := sound.high
  have same : (sextet n (begun.needed - 1)).toNat = octet.toNat := by
    rw [toNat_sextet, bits]
    omega
  refine ⟨⟨?_, same ▸ low, same ▸ high⟩, UInt8.toNat_inj.mp same⟩
  rw [div_pow_pred sound.needed, bits]
  omega

theorem Begun.Sound.more {begun : Begun} {octet : UInt8} (sound : begun.Sound) (low : begun.low ≤ octet.toNat)
    (high : octet.toNat ≤ begun.high) (more : 2 ≤ begun.needed) :
    Begun.Sound ⟨begun.needed - 1, 0x80, 0xBF, begun.bits * 0x40 + (octet.toNat - 0x80)⟩ where
  needed := Nat.le_sub_one_of_lt more
  low := Nat.le_refl _
  high := Nat.le_refl _
  valid _ fits := sound.valid _ (sound.fits_of_next low high fits.1).1

/-- The machine comes to a scalar value over its octets only. -/
theorem exists_eq_continuation {begun : Begun} (sound : begun.Sound) {octets : Bytes} {c : Char} {later : List (Option Char)}
    (read : itemsFrom (some begun) octets = some c :: later) :
    ∃ rest, octets = continuation c.toNat begun.needed ++ rest ∧ items rest = later ∧ begun.Fits c.toNat := by
  induction octets generalizing begun with
  | nil => simp [itemsFrom] at read
  | cons octet octets ih =>
    obtain ⟨count, needed⟩ := Nat.exists_eq_add_of_le' sound.needed
    rw [itemsFrom_cons, Begun.next] at read
    by_cases inside : begun.low ≤ octet.toNat ∧ octet.toNat ≤ begun.high
    · obtain ⟨low, high⟩ := inside
      simp only [low, high, and_self, if_true] at read
      cases count with
      | zero =>
        simp only [needed, Nat.zero_add, Nat.le_refl, if_true, List.cons.injEq, Option.some.injEq] at read
        obtain ⟨rfl, later⟩ := read
        obtain ⟨fits, same⟩ := sound.fits_of_next (n := begun.bits * 0x40 + (octet.toNat - 0x80)) low high (by simp [needed])
        rw [Char.toNat_ofNat, if_pos (sound.valid _ fits)]
        refine ⟨octets, ?_, later, fits⟩
        rw [needed] at same ⊢
        exact congrArg (· :: octets) same.symm
      | succ count =>
        rw [if_neg (by omega)] at read
        obtain ⟨rest, rfl, later, onward⟩ := ih (sound.more low high (by omega)) read
        obtain ⟨fits, same⟩ := sound.fits_of_next low high onward.1
        refine ⟨rest, ?_, later, fits⟩
        rw [needed] at same ⊢
        exact congrArg (· :: _) same.symm
    · simp [inside] at read

theorem encodeChar_eq (c : Char) :
    encodeChar c =
      if c.toNat < 0x80 then [UInt8.ofNat c.toNat]
      else if c.toNat < 0x800 then UInt8.ofNat (0xC0 + c.toNat / 0x40) :: continuation c.toNat 1
      else if c.toNat < 0x10000 then UInt8.ofNat (0xE0 + c.toNat / 0x1000) :: continuation c.toNat 2
      else UInt8.ofNat (0xF0 + c.toNat / 0x40000) :: continuation c.toNat 3 := by
  simp [encodeChar, continuation, sextet]

/-- The octet that begins a scalar value of several octets tells how many follow it and has the first bits. The bounds
    of the octet behind it keep out overlong forms, surrogates and what is too large. -/
theorem lead_cases {octet : UInt8} {begun : Begun} (leads : lead octet = .more begun) :
    0x80 ≤ begun.low ∧ begun.high ≤ 0xBF ∧
      (begun.needed = 1 ∧ octet.toNat = 0xC0 + begun.bits ∧ 2 ≤ begun.bits ∧ begun.bits < 0x20 ∨
      begun.needed = 2 ∧ octet.toNat = 0xE0 + begun.bits ∧ begun.bits < 0x10 ∧
        (begun.bits ≠ 0 ∨ begun.low = 0xA0) ∧ (begun.bits ≠ 0x0D ∨ begun.high = 0x9F) ∨
      begun.needed = 3 ∧ octet.toNat = 0xF0 + begun.bits ∧ begun.bits ≤ 4 ∧
        (begun.bits ≠ 0 ∨ begun.low = 0x90) ∧ (begun.bits ≠ 4 ∨ begun.high = 0x8F)) := by
  unfold lead at leads
  simp only at leads
  split_ifs at leads
  all_goals
    obtain rfl := Step.more.inj leads
    dsimp only
    omega

theorem ofNat_eq_of_toNat {octet : UInt8} {n : Nat} (same : octet.toNat = n) : UInt8.ofNat n = octet := by
  rw [← same, UInt8.ofNat_toNat]

/-- Behind the octet that begins a scalar value, the rest of its octets makes the value. -/
theorem lead_more {octet : UInt8} {begun : Begun} (leads : lead octet = .more begun) :
    begun.Sound ∧ ∀ c : Char, begun.Fits c.toNat → encodeChar c = octet :: continuation c.toNat begun.needed := by
  obtain ⟨low, high, ⟨needed, first, least, most⟩ | ⟨needed, first, most, overlong, surrogate⟩ |
    ⟨needed, first, most, overlong, large⟩⟩ := lead_cases leads
  · have start : ∀ n, begun.Fits n → n / 0x40 = begun.bits := fun n fits => by simpa [needed] using fits.1
    refine ⟨⟨needed.ge, low, high, fun n fits => ?_⟩, fun c fits => ?_⟩
    · have bits := start n fits
      exact .inl (by omega)
    · have bits := start c.toNat fits
      rw [encodeChar_eq, if_neg (by omega), if_pos (by omega), needed, ofNat_eq_of_toNat (first.trans (by rw [bits]))]
  · have start : ∀ n, begun.Fits n → n / 0x1000 = begun.bits ∧ begun.low ≤ 0x80 + n / 0x40 % 0x40 ∧
        0x80 + n / 0x40 % 0x40 ≤ begun.high := fun n fits => by simpa [needed, Begun.Fits, toNat_sextet] using fits
    refine ⟨⟨by omega, low, high, fun n fits => ?_⟩, fun c fits => ?_⟩
    · have bits := start n fits
      unfold Nat.isValidChar
      omega
    · have bits := start c.toNat fits
      rw [encodeChar_eq, if_neg (by omega), if_neg (by omega), if_pos (by omega), needed,
        ofNat_eq_of_toNat (first.trans (by rw [bits.1]))]
  · have start : ∀ n, begun.Fits n → n / 0x40000 = begun.bits ∧ begun.low ≤ 0x80 + n / 0x1000 % 0x40 ∧
        0x80 + n / 0x1000 % 0x40 ≤ begun.high := fun n fits => by simpa [needed, Begun.Fits, toNat_sextet] using fits
    refine ⟨⟨by omega, low, high, fun n fits => ?_⟩, fun c fits => ?_⟩
    · have bits := start n fits
      exact .inr (by omega)
    · have bits := start c.toNat fits
      rw [encodeChar_eq, if_neg (by omega), if_neg (by omega), if_neg (by omega), needed,
        ofNat_eq_of_toNat (first.trans (by rw [bits.1]))]

theorem lead_done {octet : UInt8} {c : Char} (leads : lead octet = .done c) : encodeChar c = [octet] := by
  unfold lead at leads
  simp only at leads
  split_ifs at leads with ascii
  obtain rfl := Step.done.inj leads
  have value : (Char.ofNat octet.toNat).toNat = octet.toNat := by
    rw [Char.toNat_ofNat, if_pos (.inl (by omega))]
  rw [encodeChar_eq, value, if_pos ascii, UInt8.ofNat_toNat]

section Leads

variable {n : Nat}

theorem exists_lead_two (least : 0x80 ≤ n) (most : n < 0x800) :
    ∃ begun, lead (UInt8.ofNat (0xC0 + n / 0x40)) = .more begun ∧ begun.Fits n := by
  have first : (UInt8.ofNat (0xC0 + n / 0x40)).toNat = 0xC0 + n / 0x40 := by
    rw [UInt8.toNat_ofNat']
    omega
  refine ⟨⟨1, 0x80, 0xBF, 0xC0 + n / 0x40 - 0xC0⟩, ?_, ?_⟩
  · rw [lead]
    simp only [first]
    rw [if_neg (by omega), if_neg (by omega), if_pos (by omega)]
  · simp only [Begun.Fits, toNat_sextet]
    omega

theorem exists_lead_three (least : 0x800 ≤ n) (most : n < 0x10000) (valid : n.isValidChar) :
    ∃ begun, lead (UInt8.ofNat (0xE0 + n / 0x1000)) = .more begun ∧ begun.Fits n := by
  have first : (UInt8.ofNat (0xE0 + n / 0x1000)).toNat = 0xE0 + n / 0x1000 := by
    rw [UInt8.toNat_ofNat']
    omega
  unfold Nat.isValidChar at valid
  rw [lead]
  simp only [first]
  rw [if_neg (by omega), if_neg (by omega), if_neg (by omega)]
  by_cases overlong : 0xE0 + n / 0x1000 = 0xE0
  · refine ⟨_, if_pos overlong, ?_⟩
    simp only [Begun.Fits, toNat_sextet]
    omega
  rw [if_neg overlong]
  by_cases surrogates : 0xE0 + n / 0x1000 = 0xED
  · refine ⟨_, if_pos surrogates, ?_⟩
    simp only [Begun.Fits, toNat_sextet]
    omega
  · rw [if_neg surrogates, if_pos (by omega)]
    refine ⟨_, rfl, ?_⟩
    simp only [Begun.Fits, toNat_sextet]
    omega

theorem exists_lead_four (least : 0x10000 ≤ n) (valid : n.isValidChar) :
    ∃ begun, lead (UInt8.ofNat (0xF0 + n / 0x40000)) = .more begun ∧ begun.Fits n := by
  unfold Nat.isValidChar at valid
  have first : (UInt8.ofNat (0xF0 + n / 0x40000)).toNat = 0xF0 + n / 0x40000 := by
    rw [UInt8.toNat_ofNat']
    omega
  rw [lead]
  simp only [first]
  rw [if_neg (by omega), if_neg (by omega), if_neg (by omega), if_neg (by omega), if_neg (by omega), if_neg (by omega)]
  by_cases overlong : 0xF0 + n / 0x40000 = 0xF0
  · refine ⟨_, if_pos overlong, ?_⟩
    simp only [Begun.Fits, toNat_sextet]
    omega
  rw [if_neg overlong]
  by_cases inner : 0xF0 + n / 0x40000 < 0xF4
  · refine ⟨_, if_pos inner, ?_⟩
    simp only [Begun.Fits, toNat_sextet]
    omega
  · rw [if_neg inner, if_pos (by omega)]
    refine ⟨_, rfl, ?_⟩
    simp only [Begun.Fits, toNat_sextet]
    omega

end Leads

theorem items_encodeChar (c : Char) (rest : Bytes) : items (encodeChar c ++ rest) = some c :: items rest := by
  -- Once an octet leads to the value, it has the value's octets behind it.
  have led : ∀ octet, (∃ begun, lead octet = .more begun ∧ begun.Fits c.toNat) →
      items (encodeChar c ++ rest) = some c :: items rest := by
    rintro octet ⟨begun, leads, fits⟩
    obtain ⟨sound, octets⟩ := lead_more leads
    obtain ⟨count, needed⟩ := Nat.exists_eq_add_of_le' sound.needed
    rw [octets c fits, List.cons_append, items_cons, leads, needed]
    exact itemsFrom_continuation needed fits rest
  by_cases one : c.toNat < 0x80
  · have first : (UInt8.ofNat c.toNat).toNat = c.toNat := by
      rw [UInt8.toNat_ofNat']
      omega
    have leads : lead (UInt8.ofNat c.toNat) = .done c := by
      rw [lead]
      simp only [first, if_pos one, Char.ofNat_toNat]
    rw [lead_done leads, List.singleton_append, items_cons, leads]
  by_cases two : c.toNat < 0x800
  · exact led _ (exists_lead_two (by omega) two)
  by_cases three : c.toNat < 0x10000
  · exact led _ (exists_lead_three (by omega) three c.valid)
  · exact led _ (exists_lead_four (by omega) c.valid)

theorem exists_eq_encodeChar {octets : Bytes} {c : Char} {later : List (Option Char)} (read : items octets = some c :: later) :
    ∃ rest, octets = encodeChar c ++ rest ∧ items rest = later := by
  cases octets with
  | nil => simp [items, itemsFrom] at read
  | cons octet octets =>
    rw [items_cons] at read
    cases leads : lead octet with
    | more begun =>
      rw [leads] at read
      obtain ⟨sound, spelled⟩ := lead_more leads
      obtain ⟨rest, rfl, later, fits⟩ := exists_eq_continuation sound read
      exact ⟨rest, by rw [spelled c fits, List.cons_append], later⟩
    | done d =>
      rw [leads] at read
      obtain ⟨same, later⟩ := List.cons.inj read
      obtain rfl := Option.some.inj same
      exact ⟨octets, by rw [lead_done leads, List.singleton_append], later⟩
    | refused =>
      rw [leads] at read
      simp at read

theorem mapM_id_eq_some_iff {read : List (Option Char)} {text : Text} : read.mapM id = some text ↔ read = text.map some := by
  induction read generalizing text with
  | nil => cases text <;> simp
  | cons item read ih =>
    cases text with
    | nil => simp [Option.bind_eq_some_iff]
    | cons c text => simp [Option.bind_eq_some_iff, ih]

theorem items_eq_map_iff {octets : Bytes} {text : Text} : items octets = text.map some ↔ octets = encode text := by
  induction text generalizing octets with
  | nil => exact items_eq_nil_iff
  | cons c text ih =>
    rw [List.map_cons, encode, List.flatMap_cons, ← encode]
    constructor
    · intro read
      obtain ⟨rest, rfl, later⟩ := exists_eq_encodeChar read
      rw [ih.mp later]
    · rintro rfl
      rw [items_encodeChar, ih.mpr rfl]

/-- Reading octets gives a text exactly if they are how the text is written. -/
theorem decode?_eq_some_iff {octets : Bytes} {text : Text} : decode? octets = some text ↔ octets = encode text := by
  rw [decode?, mapM_id_eq_some_iff, items_eq_map_iff]

end HashTunnel.Utf8
