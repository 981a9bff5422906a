import WalletBackend.Http.TxRoutes

/-! The references that a driver is asked about: each denotes the output that the caller's denoted, in
the one spelling in which both drivers compare outputs. -/
namespace WalletBackend.Http

section Pattern

theorem accepts_cons {low high c : Char} {classes : Alternative} {rest : List Char} :
    Alternative.accepts ((low, high) :: classes) (c :: rest) = true ↔
      (low.toNat ≤ c.toNat ∧ c.toNat ≤ high.toNat) ∧ classes.accepts rest = true := by
  simp only [Alternative.accepts, Bool.and_eq_true, decide_eq_true_eq, Char.le_def,
    UInt32.le_iff_toNat_le]
  rfl

@[simp] theorem accepts_nil : Alternative.accepts [] [] = true := rfl

@[simp] theorem accepts_long (c : Char) (rest : List Char) :
    Alternative.accepts [] (c :: rest) = false := rfl

@[simp] theorem accepts_short (range : Char × Char) (classes : Alternative) :
    Alternative.accepts (range :: classes) [] = false := rfl

/-- The bound, digit by digit. -/
theorem value_le_iff {a b c d e : Nat} (hb : b ≤ 9) (hc : c ≤ 9) (hd : d ≤ 9) (he : e ≤ 9) :
    10 * (10 * (10 * (10 * a + b) + c) + d) + e ≤ 32767 ↔
      a < 3 ∨ a = 3 ∧ (b < 2 ∨ b = 2 ∧ (c < 7 ∨ c = 7 ∧ (d < 6 ∨ d = 6 ∧ e ≤ 7))) := by
  omega

/-- The alternatives are the numbers of at most five digits that are in range. -/
theorem outputIndex_iff (index : List Char) :
    (OUTPUT_INDEX.any fun alternative => alternative.accepts index) = true ↔
      (1 ≤ index.length ∧ index.length ≤ 5) ∧ index.all Char.isDigit = true ∧
        Nat.ofDigitChars 10 index 0 ≤ MAX_OUTPUT_INDEX := by
  rw [OUTPUT_INDEX, DIGIT, MAX_OUTPUT_INDEX]
  simp only [List.any_cons, List.any_nil, Bool.or_eq_true, Bool.or_false]
  match index with
  | [] => simp
  | [a] =>
    simp [accepts_cons, Nat.ofDigitChars_cons, Char.isDigit_iff_toNat]
    omega
  | [a, b] =>
    simp [accepts_cons, Nat.ofDigitChars_cons, Char.isDigit_iff_toNat]
    omega
  | [a, b, c] =>
    simp [accepts_cons, Nat.ofDigitChars_cons, Char.isDigit_iff_toNat]
    omega
  | [a, b, c, d] =>
    simp [accepts_cons, Nat.ofDigitChars_cons, Char.isDigit_iff_toNat]
    omega
  | [a, b, c, d, e] =>
    simp [accepts_cons, Nat.ofDigitChars_cons, Char.isDigit_iff_toNat]
    constructor
    · rintro (alternative | alternative | alternative | alternative | alternative | alternative)
      all_goals omega
    · rintro ⟨digits, bound⟩
      rw [value_le_iff (by omega) (by omega) (by omega) (by omega)] at bound
      obtain low | ⟨three, low | ⟨two, low | ⟨seven, low | ⟨six, low⟩⟩⟩⟩ := bound
      · obtain zero | positive : a.toNat = 48 ∨ 49 ≤ a.toNat := by omega
        · exact .inl (by omega)
        · exact .inr (.inl (by omega))
      · exact .inr (.inr (.inl (by omega)))
      · exact .inr (.inr (.inr (.inl (by omega))))
      · exact .inr (.inr (.inr (.inr (.inl (by omega)))))
      · exact .inr (.inr (.inr (.inr (.inr (by omega)))))
  | a :: b :: c :: d :: e :: f :: rest => simp [accepts_cons]

end Pattern

/-- The output that a reference denotes: the case of its hash and zeros in front of its index do not
matter. -/
def Denotes (ref : String) (output : OutputRef) : Prop :=
  ∃ hash index, ref.toList = hash ++ '#' :: index ∧
    (hash.length = 64 ∧ hash.all Hex.isDigit = true) ∧
    ((1 ≤ index.length ∧ index.length ≤ 5) ∧ index.all Char.isDigit = true) ∧
    output = ((String.ofList hash).toLower, Nat.ofDigitChars 10 index 0)

/-- What a reference is sent as. -/
structure Sent (ref sent : String) (output : OutputRef) : Prop where
  denotes : Denotes ref output
  bound : output.2 ≤ MAX_OUTPUT_INDEX
  spelled : sent = output.key

section Normalization

variable {ref sent : String} {output : OutputRef}

theorem Denotes.unique {output' : OutputRef} (denotes : Denotes ref output)
    (denotes' : Denotes ref output') : output = output' := by
  obtain ⟨hash, index, spelled, ⟨length, -⟩, -, rfl⟩ := denotes
  obtain ⟨hash', index', spelled', ⟨length', -⟩, -, rfl⟩ := denotes'
  obtain ⟨rfl, same⟩ := List.append_inj (spelled.symm.trans spelled') (length.trans length'.symm)
  cases same
  rfl

/-- The pattern accepts the references to outputs in range. -/
theorem isUtxoRef_iff :
    isUtxoRef ref = true ↔ ∃ output, Denotes ref output ∧ output.2 ≤ MAX_OUTPUT_INDEX := by
  rw [isUtxoRef]
  constructor
  · intro accepted
    obtain ⟨shape, alternatives⟩ := Bool.and_eq_true_iff.mp accepted
    obtain ⟨length, digits⟩ := Bool.and_eq_true_iff.mp shape
    split at alternatives
    case h_1 index rest =>
      obtain ⟨few, decimal, bound⟩ := (outputIndex_iff index).mp alternatives
      refine ⟨_, ⟨ref.toList.take 64, index, ?_, ⟨eq_of_beq length, digits⟩, ⟨few, decimal⟩, rfl⟩, bound⟩
      rw [← rest, List.take_append_drop]
    case h_2 => cases alternatives
  · rintro ⟨_, ⟨hash, index, spelled, ⟨length, digits⟩, ⟨few, decimal⟩, rfl⟩, bound⟩
    simp only [spelled, List.take_left' length, List.drop_left' length, length, digits, beq_self_eq_true,
      Bool.true_and]
    exact (outputIndex_iff index).mpr ⟨few, decimal, bound⟩

/-- What is read off by position. -/
theorem Denotes.slices (denotes : Denotes ref output) :
    ((String.ofList (ref.toList.take 64)).toLower, Nat.ofDigitChars 10 (ref.toList.drop 65) 0) =
      output := by
  obtain ⟨hash, index, spelled, ⟨length, -⟩, -, rfl⟩ := denotes
  have next : (hash ++ '#' :: index).drop 65 = index := by
    have split : hash ++ '#' :: index = (hash ++ ['#']) ++ index := by simp
    exact split ▸ List.drop_left' (by simp [length])
  rw [spelled, List.take_left' length, next]

/-- The second check never refuses what the pattern accepts. -/
theorem normalizeUtxoRef_iff : normalizeUtxoRef ref = some sent ↔ ∃ output, Sent ref sent output := by
  rw [normalizeUtxoRef]
  constructor
  · intro normalized
    split at normalized
    case isTrue => cases normalized
    case isFalse accepted =>
      obtain ⟨output, denotes, bound⟩ := isUtxoRef_iff.mp (not_not.mp accepted)
      simp only [denotes.slices] at normalized
      split at normalized
      case isTrue => cases normalized
      case isFalse =>
        cases normalized
        exact ⟨output, denotes, bound, rfl⟩
  · rintro ⟨output, denotes, bound, rfl⟩
    have accepted := isUtxoRef_iff.mpr ⟨output, denotes, bound⟩
    have index := congrArg Prod.snd denotes.slices
    have safe : ¬ (maxSafeInteger < output.2 ∨ MAX_OUTPUT_INDEX < output.2) := by
      have far : MAX_OUTPUT_INDEX ≤ maxSafeInteger := by decide
      omega
    simp only at index
    rw [if_neg (not_not.mpr accepted)]
    simp only [index]
    rw [if_neg safe, ← index, denotes.slices]

end Normalization

section Drivers

variable {ref sent : String} {output : OutputRef}

theorem Denotes.hash (denotes : Denotes ref output) :
    output.1.toLower = output.1 ∧ output.1.toList.length = 64 ∧
      output.1.toList.all Hex.isDigit = true := by
  obtain ⟨hash, index, -, ⟨length, digits⟩, -, rfl⟩ := denotes
  refine ⟨toLower_toLower _, ?_, ?_⟩
  · rw [toList_toLower, String.toList_ofList, List.length_map, length]
  · rw [toList_toLower, String.toList_ofList, List.all_map]
    exact List.all_eq_true.mpr fun c member => Hex.isDigit_toLower (List.all_eq_true.mp digits c member)

/-- The spelling that is sent is one of the output. -/
theorem Sent.again (given : Sent ref sent output) : Sent sent sent output := by
  obtain ⟨lower, length, digits⟩ := given.denotes.hash
  have few : (Nat.toDigits 10 output.2).length ≤ 5 := by
    rw [Nat.length_toDigits_le_iff (by decide) (by decide)]
    exact given.bound.trans_lt (by decide)
  refine ⟨⟨output.1.toList, Nat.toDigits 10 output.2, ?_, ⟨length, digits⟩, ⟨⟨?_, few⟩, ?_⟩, ?_⟩,
    given.bound, given.spelled⟩
  · rw [given.spelled, OutputRef.key_toList]
  · exact Nat.length_toDigits_pos
  · exact (Numerals.toDigits_proper output.2).2
  · rw [String.ofList_toList, lower, Nat.ofDigitChars_ten_toDigits]

theorem idxOf?_append {separator : Char} {front rest : List Char} (clean : separator ∉ front) :
    (front ++ separator :: rest).idxOf? separator = some front.length := by
  induction front with
  | nil => simp [List.idxOf?_cons]
  | cons c front ih =>
    obtain ⟨other, clean⟩ := not_or.mp (mt List.mem_cons.mpr clean)
    rw [List.cons_append, List.idxOf?_cons, if_neg (by simpa using Ne.symm other), ih clean]
    rfl

/-- Both drivers read it as that output: the one splits it, the other compares it with its rows. -/
theorem Sent.understood (given : Sent ref sent output) :
    Blockfrost.Refs.parseRef sent = some ⟨sent, output.1, output.2⟩ ∧ sent.toLower = output.key := by
  obtain ⟨lower, length, digits⟩ := given.denotes.hash
  constructor
  · have clean : '#' ∉ output.1.toList := fun member =>
      absurd (List.all_eq_true.mp digits '#' member) (by decide)
    have split : Blockfrost.Refs.splitRef sent.toList =
        (output.1.toList, Nat.toDigits 10 output.2) := by
      have tail : output.1.toList ++ '#' :: Nat.toDigits 10 output.2 =
          (output.1.toList ++ ['#']) ++ Nat.toDigits 10 output.2 := by simp
      rw [given.spelled, OutputRef.key_toList, Blockfrost.Refs.splitRef, idxOf?_append clean]
      exact Prod.ext (List.take_left' rfl) (tail ▸ List.drop_left' (by simp))
    obtain ⟨nonempty, decimal⟩ := Numerals.toDigits_proper output.2
    have safe : output.2 ≤ maxSafeInteger := given.bound.trans (by decide)
    rw [Blockfrost.Refs.parseRef, split]
    simp only [Nat.ofDigitChars_ten_toDigits]
    rw [if_pos ⟨length, digits, nonempty, decimal⟩, if_pos safe, String.ofList_toList, lower]
  · rw [given.spelled, OutputRef.toLower_key, lower]

end Drivers

section Route

theorem sortRefs_eq (refs : List String) :
    sortRefs refs = (refs.filterMap normalizeUtxoRef, refs.filter fun ref => (normalizeUtxoRef ref).isNone) := by
  induction refs with
  | nil => rfl
  | cons ref refs ih =>
    rw [sortRefs, ih]
    split
    case h_1 none_ => simp [none_]
    case h_2 normalized some_ => simp [some_]

/-- The references of a body that denote no output in range. -/
def unsent (refs : List String) : List String := refs.filter fun ref => (normalizeUtxoRef ref).isNone

theorem mem_unsent {refs : List String} {ref : String} :
    ref ∈ unsent refs ↔ ref ∈ refs ∧ ¬ ∃ sent output, Sent ref sent output := by
  simp only [unsent, List.mem_filter, Option.isNone_iff_eq_none, Option.eq_none_iff_forall_not_mem,
    Option.mem_def, normalizeUtxoRef_iff, not_exists]

/-- Where all references denote, each is sent in its place. -/
theorem forall₂_filterMap {refs : List String} (all : unsent refs = []) :
    List.Forall₂ (fun ref sent => ∃ output, Sent ref sent output) refs
      (refs.filterMap normalizeUtxoRef) := by
  induction refs with
  | nil => exact .nil
  | cons ref refs ih =>
    cases normalized : normalizeUtxoRef ref with
    | none => simp [unsent, normalized] at all
    | some sent =>
      rw [List.filterMap_cons_some normalized]
      refine .cons (normalizeUtxoRef_iff.mp normalized) (ih ?_)
      simpa [unsent, normalized] using all

theorem eq_filterMap {refs asked : List String}
    (each : List.Forall₂ (fun ref sent => ∃ output, Sent ref sent output) refs asked) :
    unsent refs = [] ∧ asked = refs.filterMap normalizeUtxoRef := by
  induction each with
  | nil => exact ⟨rfl, rfl⟩
  | cons here _ ih =>
    have normalized := normalizeUtxoRef_iff.mpr here
    rw [List.filterMap_cons_some normalized, ← ih.2]
    exact ⟨by simpa [unsent, normalized] using ih.1, rfl⟩

/-- The driver is asked about the outputs that the references of the body denote, each in its place,
unless one of these denotes none in range: then the refusal names the first of such. The spelling
it is asked in is the one of that output: both drivers read it as the output denoted, no other
output shares it, and a reference that is spelled so is sent as it is. -/
theorem txUtxos_asks (body : Option Json) (refs : List String) (read : utxoRefsBody body = some refs) :
    (∀ asked, txUtxos body = .ok asked ↔
      List.Forall₂ (fun ref sent => ∃ output, Sent ref sent output) refs asked) ∧
    (∀ refusal, txUtxos body = .error refusal ↔
      refusal = badRefs (unsent refs) ∧ ∃ ref ∈ refs, ¬ ∃ sent output, Sent ref sent output) ∧
    ∀ ref sent output, Sent ref sent output →
      (Blockfrost.Refs.parseRef sent = some ⟨sent, output.1, output.2⟩ ∧ sent.toLower = output.key) ∧
      Sent sent sent output ∧
      ∀ ref' output', Sent ref' sent output' → output' = output := by
  refine ⟨fun asked => ?_, fun refusal => ?_, fun ref sent output given => ?_⟩
  · rw [txUtxos, read]
    simp only [sortRefs_eq]
    constructor
    · intro sent
      split at sent
      case isTrue => cases sent
      case isFalse none_ =>
        cases sent
        exact forall₂_filterMap (List.length_eq_zero_iff.mp (Nat.eq_zero_of_not_pos none_))
    · intro each
      obtain ⟨all, rfl⟩ := eq_filterMap each
      rw [if_neg (by simpa [unsent] using all)]
  · rw [txUtxos, read]
    simp only [sortRefs_eq]
    constructor
    · intro refused
      split at refused
      case isTrue some_ =>
        cases refused
        obtain ⟨ref, member⟩ := List.length_pos_iff_exists_mem.mp some_
        exact ⟨rfl, ref, mem_unsent.mp member⟩
      case isFalse => cases refused
    · rintro ⟨rfl, ref, member, none_⟩
      exact if_pos (List.length_pos_of_mem (mem_unsent.mpr ⟨member, none_⟩))
  · refine ⟨given.understood, given.again, fun ref' output' given' => ?_⟩
    exact OutputRef.key_injective (given'.spelled.symm.trans given.spelled)

section Example

def capitalSpelling : String := String.ofList (List.replicate 64 'A') ++ "#007"

def canonicalSpelling : String := String.ofList (List.replicate 64 'a') ++ "#7"

/-- One output in two spellings. -/
def twoSpellings : Option Json := some (.object fun key => if key = "refs" then
  some (.array [.string capitalSpelling, .string canonicalSpelling]) else none)

theorem twoSpellings_read :
    utxoRefsBody twoSpellings = some [capitalSpelling, canonicalSpelling] := rfl

theorem spelling_denotes {spelling : String} (letter : Char) (index : List Char)
    (spelled : spelling.toList = List.replicate 64 letter ++ '#' :: index)
    (digit : letter.toLower = 'a' ∧ Hex.isDigit letter = true)
    (decimal : (1 ≤ index.length ∧ index.length ≤ 5) ∧ index.all Char.isDigit = true)
    (number : Nat.ofDigitChars 10 index 0 = 7) :
    Denotes spelling (String.ofList (List.replicate 64 'a'), 7) := by
  refine ⟨List.replicate 64 letter, index, spelled, ⟨List.length_replicate, ?_⟩, decimal, ?_⟩
  · simp [digit.2]
  · rw [number, Prod.mk.injEq, and_iff_left rfl]
    apply String.toList_inj.mp
    rw [toList_toLower, String.toList_ofList, String.toList_ofList, List.map_replicate, digit.1]

/-- Both spellings are asked about as the canonical one. -/
theorem twoSpellings_asks :
    txUtxos twoSpellings = .ok [canonicalSpelling, canonicalSpelling] := by
  obtain ⟨asks, -⟩ := txUtxos_asks twoSpellings _ twoSpellings_read
  have capital : Denotes capitalSpelling (String.ofList (List.replicate 64 'a'), 7) :=
    spelling_denotes 'A' ['0', '0', '7']
      ((String.toList_append ..).trans (congrArg (· ++ "#007".toList) String.toList_ofList))
      (by decide) (by decide) (by decide)
  have canonical : Denotes canonicalSpelling (String.ofList (List.replicate 64 'a'), 7) :=
    spelling_denotes 'a' ['7']
      ((String.toList_append ..).trans (congrArg (· ++ "#7".toList) String.toList_ofList))
      (by decide) (by decide) (by decide)
  exact (asks _).mpr (.cons ⟨_, capital, by decide, rfl⟩ (.cons ⟨_, canonical, by decide, rfl⟩ .nil))

end Example

end Route

end WalletBackend.Http
