import Mathlib.Data.List.Basic

/-!
# Percent-encoding and query strings

Bytes are characters below 256.  A client keeps some of them and writes `%XX` for the others; a
server splits the query of a URL at `&` and `=` and decodes the parts.
-/

namespace PercentEncoding

/-! ## Hexadecimal digits -/

def hexDigit (n : Nat) : Char := Char.ofNat (if n < 10 then 48 + n else 55 + n)

/-- The value of a digit, in either case. -/
def hexValue (c : Char) : Option Nat :=
  if 48 ≤ c.toNat ∧ c.toNat ≤ 57 then some (c.toNat - 48)
  else if 65 ≤ c.toNat ∧ c.toNat ≤ 70 then some (c.toNat - 55)
  else if 97 ≤ c.toNat ∧ c.toNat ≤ 102 then some (c.toNat - 87)
  else none

theorem hexValue_hexDigit {n : Nat} (hn : n < 16) : hexValue (hexDigit n) = some n := by
  have hall : ∀ n : Fin 16, hexValue (hexDigit n) = some n.val := by decide
  exact hall ⟨n, hn⟩

/-! ## Encoding and decoding -/

/-- The second string is the first one with `%XX` for the bytes that `keep` does not hold of; the
digits are of either case. -/
inductive Encodes (keep : Char → Bool) : List Char → List Char → Prop where
  | nil : Encodes keep [] []
  | kept {c : Char} {s t : List Char} (hc : keep c = true) (h : Encodes keep s t) :
      Encodes keep (c :: s) (c :: t)
  | coded {c a b : Char} {s t : List Char} (hc : keep c = false)
      (ha : hexValue a = some (c.toNat / 16)) (hb : hexValue b = some (c.toNat % 16))
      (h : Encodes keep s t) : Encodes keep (c :: s) ('%' :: a :: b :: t)

/-- An encoder. -/
def encode (keep : Char → Bool) (s : List Char) : List Char :=
  s.flatMap fun c =>
    if keep c then [c] else ['%', hexDigit (c.toNat / 16), hexDigit (c.toNat % 16)]

/-- `%XX` is read as a byte; a `%` without two digits behind it stands for itself. -/
def decode : List Char → List Char
  | c :: a :: b :: rest =>
    if c = '%' then
      match hexValue a, hexValue b with
      | some x, some y => Char.ofNat (16 * x + y) :: decode rest
      | _, _ => c :: decode (a :: b :: rest)
    else c :: decode (a :: b :: rest)
  | s => s

@[simp] theorem decode_nil : decode [] = [] := by
  unfold decode
  rfl

theorem decode_cons_of_ne {c : Char} (hc : c ≠ '%') (s : List Char) :
    decode (c :: s) = c :: decode s := by
  rcases s with _ | ⟨a, _ | ⟨b, rest⟩⟩
  · simp [decode]
  · simp [decode]
  · rw [decode, if_neg hc]

theorem decode_hex {a b : Char} {x y : Nat} (ha : hexValue a = some x) (hb : hexValue b = some y)
    (s : List Char) : decode ('%' :: a :: b :: s) = Char.ofNat (16 * x + y) :: decode s := by
  rw [decode, if_pos rfl, ha, hb]

section

variable {keep : Char → Bool} {s t : List Char}

theorem encodes_encode (hs : ∀ c ∈ s, c.toNat < 256) : Encodes keep s (encode keep s) := by
  induction s with
  | nil => exact .nil
  | cons c s ih =>
    have hbyte : c.toNat < 256 := hs c (by simp)
    have hrest := ih fun c' hc' => hs c' (by simp [hc'])
    rw [encode, List.flatMap_cons, ← encode]
    by_cases hc : keep c = true
    · rw [if_pos hc]
      exact .kept hc hrest
    · rw [if_neg hc]
      exact .coded (Bool.eq_false_iff.mpr hc) (hexValue_hexDigit (by omega))
        (hexValue_hexDigit (by omega)) hrest

/-- An encoding that keeps no `%` can be undone. -/
theorem Encodes.decode_eq (hkeep : keep '%' = false) (h : Encodes keep s t) : decode t = s := by
  induction h with
  | nil => exact decode_nil
  | @kept c s t hc _ ih =>
    have hne : c ≠ '%' := by
      rintro rfl
      rw [hkeep] at hc
      contradiction
    rw [decode_cons_of_ne hne, ih]
  | @coded c a b s t _ ha hb _ ih =>
    have hback : 16 * (c.toNat / 16) + c.toNat % 16 = c.toNat := by omega
    rw [decode_hex ha hb, ih, hback, Char.ofNat_toNat]

/-- What stands in an encoded string: characters that are kept, `%` and digits. -/
theorem Encodes.mem {x : Char} (h : Encodes keep s t) (hx : x ∈ t) :
    keep x = true ∨ x = '%' ∨ (hexValue x).isSome := by
  induction h with
  | nil => exact absurd hx List.not_mem_nil
  | kept hc _ ih =>
    rcases List.mem_cons.mp hx with rfl | hx
    · exact .inl hc
    · exact ih hx
  | coded _ ha hb _ ih =>
    simp only [List.mem_cons] at hx
    rcases hx with rfl | rfl | rfl | hx
    · exact .inr (.inl rfl)
    · rw [ha]
      exact .inr (.inr rfl)
    · rw [hb]
      exact .inr (.inr rfl)
    · exact ih hx

end

/-! ## Queries -/

/-- `+` stands for a space in a query. -/
def decodePlus (s : List Char) : List Char := decode (s.map fun c => if c = '+' then ' ' else c)

/-- The part in front of the first `sep` and the part behind it. -/
def splitFirst (sep : Char) (s : List Char) : Option (List Char × List Char) :=
  match s.dropWhile (· ≠ sep) with
  | [] => none
  | _ :: behind => some (s.takeWhile (· ≠ sep), behind)

/-- The fields of a query; those without a value are left out. -/
def parseQuery (query : List Char) : List (List Char × List Char) :=
  (query.splitOn '&').filterMap fun field =>
    match splitFirst '=' field with
    | none => none
    | some (name, value) => if value = [] then none else some (decodePlus name, decodePlus value)

theorem splitFirst_append {sep : Char} {s : List Char} (hs : sep ∉ s) (behind : List Char) :
    splitFirst sep (s ++ sep :: behind) = some (s, behind) := by
  have hall : ∀ c ∈ s, (fun c => decide (c ≠ sep)) c = true := by
    intro c hc
    exact decide_eq_true fun he => hs (he ▸ hc)
  rw [splitFirst, List.dropWhile_append_of_pos hall, List.takeWhile_append_of_pos hall]
  simp

theorem decodePlus_eq {s : List Char} (hs : '+' ∉ s) : decodePlus s = decode s := by
  have hmap : s.map (fun c => if c = '+' then ' ' else c) = s := by
    rw [List.map_congr_left fun c hc => if_neg fun he : c = '+' => hs (he ▸ hc), List.map_id']
  rw [decodePlus, hmap]

theorem decode_of_plain {s : List Char} (hs : '%' ∉ s) : decode s = s := by
  induction s with
  | nil => exact decode_nil
  | cons c s ih =>
    rw [decode_cons_of_ne fun he => hs (by simp [he]), ih fun hmem => hs (by simp [hmem])]

/-- The one field of a query whose value is encoded. -/
theorem parseQuery_encoded {keep : Char → Bool} {name value coded : List Char}
    (hkeep : ∀ c ∈ ['%', '&', '+'], keep c = false) (hname : ∀ c ∈ ['%', '&', '+', '='], c ∉ name)
    (hcoded : Encodes keep value coded) (hvalue : value ≠ []) :
    parseQuery (name ++ '=' :: coded) = [(name, value)] := by
  have hback : decode coded = value := hcoded.decode_eq (hkeep '%' (by simp))
  have habsent : ∀ c ∈ ['&', '+'], c ∉ coded := by
    intro c hc hmem
    rcases hcoded.mem hmem with h | h | h
    · rw [hkeep c (List.mem_cons_of_mem _ hc)] at h
      contradiction
    · rw [h] at hc
      exact absurd hc (by decide)
    · revert hc h
      simp only [List.mem_cons, List.not_mem_nil, or_false]
      rintro (rfl | rfl) <;> decide
  have hne : coded ≠ [] := by
    intro hnil
    rw [hnil] at hback
    exact hvalue (hback.symm.trans decode_nil)
  have hamp : '&' ∉ name ++ '=' :: coded := by
    simp [hname '&' (by simp), habsent '&' (by simp)]
  rw [parseQuery, List.splitOn_eq_singleton hamp, List.filterMap_cons_some (b := (name, value)),
    List.filterMap_nil]
  rw [splitFirst_append (hname '=' (by simp))]
  simp only [if_neg hne, decodePlus_eq (hname '+' (by simp)), decodePlus_eq (habsent '+' (by simp)),
    decode_of_plain (hname '%' (by simp)), hback]

end PercentEncoding
