import HashTunnel.Proofs.Utf8

/-! # Octets that are not UTF-8

What the lossy reading makes of octets can be told without the machine that reads them: the octets of a scalar value
become this value, and where no scalar value stands, the longest run of octets that begins one, or a single octet if
none does, becomes U+FFFD (`decodeLossy_eq_iff`). No such run goes over an octet that is a character by itself, so the
octets on its two sides are read apart (`decodeLossy_append`).
-/

namespace HashTunnel.Utf8

/-- Holds of the first octets of a scalar value. -/
def Begins (run : Bytes) : Prop :=
  ∃ c, run <+: encodeChar c

/-- The octets `run`, with `rest` behind them, are a longest ill-formed run. -/
structure IllFormed (run rest : Bytes) : Prop where
  inhabited : run ≠ []
  /-- No scalar value stands here. -/
  unreadable : ∀ c, ¬ encodeChar c <+: run ++ rest
  begins : run.length = 1 ∨ Begins run
  longest : ∀ longer, longer <+: run ++ rest → Begins longer → longer.length ≤ run.length

/-- Reading octets piece by piece, with U+FFFD for each longest ill-formed run. -/
inductive ReadsAs : Bytes → Text → Prop where
  | nil : ReadsAs [] []
  | scalar (c : Char) {rest : Bytes} {text : Text} : ReadsAs rest text → ReadsAs (encodeChar c ++ rest) (c :: text)
  | illFormed {run rest : Bytes} {text : Text} : IllFormed run rest → ReadsAs rest text →
      ReadsAs (run ++ rest) ('\uFFFD' :: text)

theorem IllFormed.length_le {run rest other later : Bytes} (first : IllFormed run rest) (second : IllFormed other later)
    (same : run ++ rest = other ++ later) : other.length ≤ run.length := by
  rcases second.begins with single | begins
  · rw [single]
    exact List.length_pos_iff.mpr first.inhabited
  · exact first.longest other ⟨later, same.symm⟩ begins

/-- There is only one longest ill-formed run at the front of octets. -/
theorem IllFormed.unique {run rest other later : Bytes} (first : IllFormed run rest) (second : IllFormed other later)
    (same : run ++ rest = other ++ later) : run = other ∧ rest = later :=
  List.append_inj same (Nat.le_antisymm (second.length_le first same.symm) (first.length_le second same))

/-- The machine is in the state `begun` after the octets `run`. -/
structure Reached (run : Bytes) (begun : Begun) : Prop where
  sound : begun.Sound
  bounds : begun.low ≤ begun.high
  leads : ∀ rest, items (run ++ rest) = itemsFrom (some begun) rest
  spells : ∀ c : Char, begun.Fits c.toNat → encodeChar c = run ++ continuation c.toNat begun.needed

theorem lead_bounds {octet : UInt8} {begun : Begun} (leads : lead octet = .more begun) : begun.low ≤ begun.high := by
  unfold lead at leads
  simp only at leads
  split_ifs at leads
  all_goals
    obtain rfl := Step.more.inj leads
    dsimp only
    omega

theorem reached_lead {octet : UInt8} {begun : Begun} (leads : lead octet = .more begun) : Reached [octet] begun where
  sound := (lead_more leads).1
  bounds := lead_bounds leads
  leads rest := by rw [List.singleton_append, items_cons, leads]
  spells := (lead_more leads).2

theorem Reached.next {run : Bytes} {begun later : Begun} {octet : UInt8} (reached : Reached run begun)
    (more : begun.next octet = .more later) : Reached (run ++ [octet]) later := by
  have leads : ∀ rest, items (run ++ [octet] ++ rest) = itemsFrom (some later) rest := by
    intro rest
    rw [List.append_assoc, reached.leads, List.singleton_append, itemsFrom_cons, more]
  unfold Begun.next at more
  simp only at more
  split_ifs at more with inside last
  obtain rfl := Step.more.inj more
  refine ⟨reached.sound.more inside.1 inside.2 (by omega), (by omega : 0x80 ≤ 0xBF), leads, fun c fits => ?_⟩
  obtain ⟨count, needed⟩ := Nat.exists_eq_add_of_le' reached.sound.needed
  obtain ⟨whole, same⟩ := reached.sound.fits_of_next inside.1 inside.2 fits.1
  rw [needed, Nat.add_sub_cancel] at same
  rw [reached.spells c whole, needed, continuation, same, List.append_assoc]
  rfl

/-- From every state there is a scalar value that the machine can still come to. -/
theorem Reached.begins {run : Bytes} {begun : Begun} (reached : Reached run begun) : Begins run := by
  have low := reached.sound.low
  have high := reached.sound.high
  have octet : (UInt8.ofNat begun.low).toNat = begun.low := by
    have bounds := reached.bounds
    rw [UInt8.toNat_ofNat']
    omega
  -- One goes on with the least octet that may come next.
  obtain ⟨n, start⟩ : ∃ n, n / 0x40 ^ (begun.needed - 1) =
      begun.bits * 0x40 + ((UInt8.ofNat begun.low).toNat - 0x80) := ⟨_, Nat.mul_div_cancel _ (by positivity)⟩
  obtain ⟨fits, -⟩ := reached.sound.fits_of_next octet.ge (octet.trans_le reached.bounds) start
  have value : (Char.ofNat n).toNat = n := by rw [Char.toNat_ofNat, if_pos (reached.sound.valid n fits)]
  exact ⟨Char.ofNat n, _, (reached.spells _ (value.symm ▸ fits)).symm⟩

theorem head?_items_encodeChar {c : Char} {octets : Bytes} (stands : encodeChar c <+: octets) :
    (items octets).head? = some (some c) := by
  obtain ⟨rest, rfl⟩ := stands
  rw [items_encodeChar]
  rfl

/-- If the machine stops behind `run` at the next octet, or at the end, then `run` is a longest ill-formed run. -/
theorem illFormed_of_stops {run rest : Bytes} (inhabited : run ≠ []) (begins : run.length = 1 ∨ Begins run)
    (stops : ∀ tail, tail.head? = rest.head? → (items (run ++ tail)).head? = some none) : IllFormed run rest := by
  refine ⟨inhabited, fun c stands => ?_, begins, ?_⟩
  · have refused := stops rest rfl
    simp [head?_items_encodeChar stands] at refused
  · rintro longer inside ⟨c, starts⟩
    by_contra more
    -- The longer part holds the run and the octet at which the machine stops, so the scalar value does too.
    obtain ⟨behind, rfl⟩ := List.prefix_of_prefix_length_le (List.prefix_append run rest) inside (by omega)
    cases behind with
    | nil => simp at more
    | cons octet behind =>
      rw [List.prefix_append_right_inj] at inside
      obtain ⟨after, rfl⟩ := inside
      obtain ⟨tail, spelled⟩ := starts
      have refused := stops (octet :: behind ++ tail) rfl
      rw [← List.append_assoc, spelled, head?_items_encodeChar List.prefix_rfl] at refused
      simp at refused

theorem Reached.exists_illFormed {run : Bytes} {begun : Begun} (inhabited : run ≠ []) (reached : Reached run begun)
    {rest : Bytes} {later : List (Option Char)} (refused : itemsFrom (some begun) rest = none :: later) :
    ∃ broken behind, run ++ rest = broken ++ behind ∧ IllFormed broken behind ∧ items behind = later := by
  induction rest generalizing run begun with
  | nil =>
    obtain ⟨-, rfl⟩ := List.cons.inj refused
    refine ⟨run, [], rfl, illFormed_of_stops inhabited (.inr reached.begins) fun tail ends => ?_, rfl⟩
    obtain rfl := List.head?_eq_none_iff.mp ends
    rw [reached.leads]
    rfl
  | cons octet rest ih =>
    have read := itemsFrom_cons begun octet
    cases step : begun.next octet with
    | more next =>
      simp only [step] at read
      rw [read] at refused
      obtain ⟨broken, behind, shape, found⟩ := ih (by simp) (reached.next step) refused
      exact ⟨broken, behind, by simpa using shape, found⟩
    | done c =>
      simp only [step] at read
      simp [read] at refused
    | refused =>
      simp only [step] at read
      rw [read] at refused
      refine ⟨run, octet :: rest, rfl, illFormed_of_stops inhabited (.inr reached.begins) fun tail next => ?_,
        (List.cons.inj refused).2⟩
      obtain ⟨after, rfl⟩ := List.head?_eq_some_iff.mp next
      rw [reached.leads, read]
      rfl

theorem exists_illFormed {octets : Bytes} {later : List (Option Char)} (refused : items octets = none :: later) :
    ∃ run rest, octets = run ++ rest ∧ IllFormed run rest ∧ items rest = later := by
  cases octets with
  | nil => simp [items, itemsFrom] at refused
  | cons octet rest =>
    have read := items_cons octet
    cases leads : lead octet with
    | more begun =>
      simp only [leads] at read
      exact (reached_lead leads).exists_illFormed (by simp) ((read rest).symm.trans refused)
    | done c =>
      simp only [leads] at read
      simp [read] at refused
    | refused =>
      simp only [leads] at read
      rw [read] at refused
      refine ⟨[octet], rest, rfl, illFormed_of_stops (by simp) (.inl rfl) fun tail _ => ?_, (List.cons.inj refused).2⟩
      rw [List.singleton_append, read]
      rfl

theorem IllFormed.items_append {run rest : Bytes} (broken : IllFormed run rest) :
    items (run ++ rest) = none :: items rest := by
  cases read : items (run ++ rest) with
  | nil => exact absurd (List.append_eq_nil_iff.mp (items_eq_nil_iff.mp read)).1 broken.inhabited
  | cons item later =>
    cases item with
    | none =>
      obtain ⟨other, behind, same, found, rfl⟩ := exists_illFormed read
      rw [(broken.unique found same).2]
    | some c =>
      obtain ⟨behind, shape, -⟩ := exists_eq_encodeChar read
      exact absurd ⟨behind, shape.symm⟩ (broken.unreadable c)

theorem readsAs_of_items {octets : Bytes} {read : List (Option Char)} (same : items octets = read) :
    ReadsAs octets (read.map (·.getD '\uFFFD')) := by
  induction read generalizing octets with
  | nil =>
    obtain rfl := items_eq_nil_iff.mp same
    exact .nil
  | cons item later ih =>
    cases item with
    | none =>
      obtain ⟨run, rest, rfl, broken, tail⟩ := exists_illFormed same
      exact .illFormed broken (ih tail)
    | some c =>
      obtain ⟨rest, rfl, tail⟩ := exists_eq_encodeChar same
      exact .scalar c (ih tail)

theorem decodeLossy_eq_iff {octets : Bytes} {text : Text} : decodeLossy octets = text ↔ ReadsAs octets text := by
  constructor
  · rintro rfl
    exact readsAs_of_items rfl
  · intro reads
    induction reads with
    | nil => rfl
    | scalar c _ ih =>
      rw [← ih, decodeLossy, items_encodeChar]
      rfl
    | illFormed broken _ ih =>
      rw [← ih, decodeLossy, broken.items_append]
      rfl

example : decodeLossy [0xE2, 0x82, 0x0A, 0xF0, 0x80] = "\uFFFD\n\uFFFD\uFFFD".toList := by decide

theorem high_of_mem_encodeChar {c : Char} (high : 0x80 ≤ c.toNat) : ∀ octet ∈ encodeChar c, 0x80 ≤ octet.toNat := by
  have below := toNat_lt c
  have tail : ∀ count, ∀ octet ∈ continuation c.toNat count, 0x80 ≤ octet.toNat := by
    intro count
    induction count with
    | zero => simp [continuation]
    | succ count ih =>
      refine List.forall_mem_cons.mpr ⟨?_, ih⟩
      rw [toNat_sextet]
      omega
  have all : ∀ n count, 0x80 ≤ n → n < 0x100 →
      ∀ octet ∈ UInt8.ofNat n :: continuation c.toNat count, 0x80 ≤ octet.toNat := by
    intro n count least most
    refine List.forall_mem_cons.mpr ⟨?_, tail count⟩
    rw [UInt8.toNat_ofNat']
    omega
  rw [encodeChar_eq, if_neg (by omega)]
  split_ifs with two three
  · exact all _ 1 (by omega) (by omega)
  · exact all _ 2 (by omega) (by omega)
  · exact all _ 3 (by omega) (by omega)

section Ascii

variable {octet : UInt8} (ascii : octet.toNat < 0x80)

include ascii

theorem encodeChar_ascii : encodeChar (Char.ofNat octet.toNat) = [octet] :=
  lead_done (if_pos ascii)

theorem encodeChar_eq_of_mem {c : Char} (member : octet ∈ encodeChar c) : encodeChar c = [octet] := by
  by_cases high : 0x80 ≤ c.toNat
  · have bound := high_of_mem_encodeChar high octet member
    omega
  · rw [encodeChar_eq, if_pos (by omega)] at member ⊢
    rw [List.mem_singleton.mp member]

theorem isPrefix_of_begins {start longer later : Bytes} (inhabited : start ≠ []) (begins : Begins longer)
    (inside : longer <+: start ++ octet :: later) : longer <+: start := by
  obtain ⟨tail, shape⟩ := inside
  rcases List.append_eq_append_iff.mp shape with ⟨middle, rfl, -⟩ | ⟨middle, rfl, behind⟩
  · exact List.prefix_append longer middle
  cases middle with
  | nil => exact (List.append_nil start).symm ▸ List.prefix_rfl
  | cons first middle =>
    obtain ⟨rfl, -⟩ := List.cons.inj behind
    obtain ⟨c, more, spelled⟩ := begins
    have whole := encodeChar_eq_of_mem ascii (c := c) (by simp [← spelled])
    have length := congrArg List.length (spelled.trans whole)
    have positive := List.length_pos_iff.mpr inhabited
    simp at length
    omega

theorem IllFormed.append_cons {run rest : Bytes} (broken : IllFormed run rest) (later : Bytes) :
    IllFormed run (rest ++ octet :: later) := by
  have inside : ∀ longer, Begins longer → longer <+: run ++ (rest ++ octet :: later) → longer <+: run ++ rest := by
    intro longer begins starts
    rw [← List.append_assoc] at starts
    exact isPrefix_of_begins ascii (List.append_ne_nil_of_left_ne_nil broken.inhabited rest) begins starts
  exact ⟨broken.inhabited, fun c stands => broken.unreadable c (inside _ ⟨c, List.prefix_rfl⟩ stands), broken.begins,
    fun longer starts begins => broken.longest longer (inside longer begins starts) begins⟩

theorem ReadsAs.append_cons {start rest : Bytes} {first second : Text} (reads : ReadsAs start first)
    (later : ReadsAs rest second) : ReadsAs (start ++ octet :: rest) (first ++ Char.ofNat octet.toNat :: second) := by
  induction reads with
  | nil =>
    have single := ReadsAs.scalar (Char.ofNat octet.toNat) later
    rwa [encodeChar_ascii ascii] at single
  | scalar c _ ih =>
    rw [List.append_assoc, List.cons_append]
    exact .scalar c ih
  | illFormed broken _ ih =>
    rw [List.append_assoc, List.cons_append]
    exact .illFormed (broken.append_cons ascii _) ih

/-- Octets before and behind one that is a character by itself are read apart, whatever they are. -/
theorem decodeLossy_append (start rest : Bytes) :
    decodeLossy (start ++ octet :: rest) = decodeLossy start ++ Char.ofNat octet.toNat :: decodeLossy rest :=
  decodeLossy_eq_iff.mpr ((decodeLossy_eq_iff.mp rfl).append_cons ascii (decodeLossy_eq_iff.mp rfl))

end Ascii

theorem ReadsAs.mem_of_mem {octets : Bytes} {text : Text} (reads : ReadsAs octets text) {c : Char} (other : c ≠ '\uFFFD')
    (member : c ∈ text) {octet : UInt8} (inside : octet ∈ encodeChar c) : octet ∈ octets := by
  induction reads with
  | nil => exact absurd member List.not_mem_nil
  | scalar d _ ih =>
    rcases List.mem_cons.mp member with rfl | later
    · exact List.mem_append_left _ inside
    · exact List.mem_append_right _ (ih later)
  | illFormed _ _ ih =>
    rcases List.mem_cons.mp member with same | later
    · exact absurd same other
    · exact List.mem_append_right _ (ih later)

end HashTunnel.Utf8
