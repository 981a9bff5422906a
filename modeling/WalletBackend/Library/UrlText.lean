import WalletBackend.Library.Splitting

/-! Texts of URLs: base64url, the serialization of query parameters, and the parts of a URL as it is
spelled. -/
namespace UrlText

section Base64

def ALPHABET : List Char :=
  "ABCDEFGHIJKLMNOPQRSTUVWXYZabcdefghijklmnopqrstuvwxyz0123456789-_".toList

def sextet (n : Nat) : Char := ALPHABET.getD n 'A'

/-- Without padding. -/
def base64url : List UInt8 → List Char
  | [] => []
  | [a] => [sextet (a.toNat / 4), sextet (a.toNat % 4 * 16)]
  | [a, b] =>
      [sextet (a.toNat / 4), sextet (a.toNat % 4 * 16 + b.toNat / 16), sextet (b.toNat % 16 * 4)]
  | a :: b :: c :: rest =>
      sextet (a.toNat / 4) :: sextet (a.toNat % 4 * 16 + b.toNat / 16) ::
        sextet (b.toNat % 16 * 4 + c.toNat / 64) :: sextet (c.toNat % 64) :: base64url rest

end Base64

section Query

/-- What the serialization leaves as it is. -/
def isPlain (c : Char) : Bool := c.isAlphanum || c ∈ ['*', '-', '.', '_']

def percentEncode (byte : UInt8) : List Char :=
  ['%', (Nat.digitChar (byte.toNat / 16)).toUpper, (Nat.digitChar (byte.toNat % 16)).toUpper]

def formEncodeChar (c : Char) : List Char :=
  if isPlain c then [c]
  else if c = ' ' then ['+']
  else (String.singleton c).toUTF8.toList.flatMap percentEncode

def formEncode (text : List Char) : List Char := text.flatMap formEncodeChar

/-- `application/x-www-form-urlencoded`. -/
def serialize (params : List (List Char × List Char)) : List Char :=
  ['&'].intercalate (params.map fun param => formEncode param.1 ++ '=' :: formEncode param.2)

/-- The names and values of a query, as they are spelled. -/
def pairs (query : List Char) : List (List Char × List Char) :=
  (query.splitOn '&').map fun part =>
    (part.takeWhile (· ≠ '='), (part.dropWhile (· ≠ '=')).drop 1)

def Plain (text : List Char) : Prop := ∀ c ∈ text, isPlain c = true

theorem formEncode_plain {text : List Char} (plain : Plain text) : formEncode text = text := by
  induction text with
  | nil => rfl
  | cons c rest ih =>
    obtain ⟨here, later⟩ := List.forall_mem_cons.mp plain
    rw [formEncode, List.flatMap_cons, formEncodeChar, if_pos here]
    exact congrArg (c :: ·) (ih later)

theorem sextet_plain (n : Nat) : isPlain (sextet n) = true := by
  have each : ∀ c ∈ ALPHABET, isPlain c = true := List.all_eq_true.mp (by decide)
  rw [sextet, List.getD_eq_getElem?_getD]
  cases found : ALPHABET[n]? with
  | none => rfl
  | some c => exact each c (List.mem_of_getElem? found)

theorem base64url_plain (bytes : List UInt8) : Plain (base64url bytes) := by
  induction bytes using base64url.induct with
  | case1 => nofun
  | case2 a => simp [Plain, base64url, sextet_plain]
  | case3 a b => simp [Plain, base64url, sextet_plain]
  | case4 a b c rest ih =>
    simp only [Plain, base64url, List.forall_mem_cons, sextet_plain, true_and]
    exact ih

theorem Plain.not_mem {text : List Char} (plain : Plain text) {c : Char} (other : isPlain c = false) :
    c ∉ text :=
  fun member => absurd (plain c member) (ne_true_of_eq_false other)

theorem takeWhile_ne {c : Char} {first rest : List Char} (clean : c ∉ first) :
    (first ++ c :: rest).takeWhile (· ≠ c) = first := by
  have all : ∀ a ∈ first, decide (a ≠ c) = true :=
    fun a member => decide_eq_true fun same => clean (same ▸ member)
  rw [List.takeWhile_append_of_pos all, List.takeWhile_cons_of_neg (by simp), List.append_nil]

theorem dropWhile_ne {c : Char} {first rest : List Char} (clean : c ∉ first) :
    (first ++ c :: rest).dropWhile (· ≠ c) = c :: rest := by
  have all : ∀ a ∈ first, decide (a ≠ c) = true :=
    fun a member => decide_eq_true fun same => clean (same ▸ member)
  rw [List.dropWhile_append_of_pos all, List.dropWhile_cons_of_neg (by simp)]

theorem intercalate_last (separator first : List Char) (rest : List (List Char)) (last : List Char) :
    separator.intercalate (rest ++ [first ++ last]) = separator.intercalate (rest ++ [first]) ++ last := by
  induction rest with
  | nil => simp
  | cons part rest ih =>
    cases rest with
    | nil => simp [List.intercalate_cons_cons]
    | cons next rest =>
      simp only [List.cons_append, List.intercalate_cons_cons, List.append_assoc] at ih ⊢
      rw [ih]

/-- A plain value in the last place comes after what would be there without it. -/
theorem serialize_last (params : List (List Char × List Char)) (name : List Char) {value : List Char}
    (plain : Plain value) :
    serialize (params ++ [(name, value)]) = serialize (params ++ [(name, [])]) ++ value := by
  have last : formEncode name ++ '=' :: formEncode value =
      (formEncode name ++ '=' :: formEncode []) ++ value := by
    rw [formEncode_plain plain, List.append_assoc]
    rfl
  rw [serialize, serialize, List.map_append, List.map_append, List.map_singleton, List.map_singleton, last,
    intercalate_last]

/-- Plain parameters are read again. -/
theorem pairs_serialize {params : List (List Char × List Char)} (some : params ≠ [])
    (plain : ∀ param ∈ params, Plain param.1 ∧ Plain param.2) : pairs (serialize params) = params := by
  have spelled : params.map (fun param => formEncode param.1 ++ '=' :: formEncode param.2) =
      params.map fun param => param.1 ++ '=' :: param.2 := by
    refine List.map_congr_left fun param member => ?_
    rw [formEncode_plain (plain param member).1, formEncode_plain (plain param member).2]
  have clean : ∀ part ∈ params.map fun param => param.1 ++ '=' :: param.2, '&' ∉ part := by
    intro part member
    obtain ⟨param, there, rfl⟩ := List.mem_map.mp member
    obtain ⟨name, value⟩ := plain param there
    intro inside
    obtain left | right := List.mem_append.mp inside
    · exact name.not_mem (by decide) left
    · obtain same | right := List.mem_cons.mp right
      · exact absurd same (by decide)
      · exact value.not_mem (by decide) right
  have some' : params.map (fun param => param.1 ++ '=' :: param.2) ≠ [] :=
    fun none => some (List.map_eq_nil_iff.mp none)
  rw [pairs, serialize, spelled, List.splitOn_intercalate '&' clean some', List.map_map]
  conv_rhs => rw [← List.map_id params]
  refine List.map_congr_left fun param member => ?_
  have name := (plain param member).1.not_mem (c := '=') (by decide)
  simp only [Function.comp_apply, takeWhile_ne name, dropWhile_ne name, List.drop_one, List.tail_cons, id]

end Query

section Parts

/-- After `https://`, up to the path. -/
def authority (url : List Char) : List Char := (url.drop 8).takeWhile (· ≠ '/')

def path (url : List Char) : List Char := ((url.drop 8).dropWhile (· ≠ '/')).takeWhile (· ≠ '?')

def query (url : List Char) : List Char :=
  (((url.drop 8).dropWhile (· ≠ '/')).dropWhile (· ≠ '?')).drop 1

variable {host route rest : List Char}

theorem parts_eq (host_clean : '/' ∉ host) (route_clean : '?' ∉ route) :
    authority ("https://".toList ++ host ++ '/' :: route ++ '?' :: rest) = host ∧
      path ("https://".toList ++ host ++ '/' :: route ++ '?' :: rest) = '/' :: route ∧
      query ("https://".toList ++ host ++ '/' :: route ++ '?' :: rest) = rest := by
  have start : ("https://".toList ++ host ++ '/' :: route ++ '?' :: rest).drop 8 =
      host ++ '/' :: (route ++ '?' :: rest) := by
    rw [List.append_assoc, List.append_assoc]
    rfl
  have clean : '?' ∉ '/' :: route := by
    intro member
    obtain same | later := List.mem_cons.mp member
    · exact absurd same (by decide)
    · exact route_clean later
  rw [authority, path, query, start, takeWhile_ne host_clean, dropWhile_ne host_clean,
    ← List.cons_append, takeWhile_ne clean, dropWhile_ne clean]
  exact ⟨rfl, rfl, rfl⟩

end Parts

end UrlText
