import WaylandWebStream.Lib.Bytes
import Mathlib.Data.List.Basic
import Mathlib.Tactic.IntervalCases

/-!
# Base64 — the standard encoding, and what a script makes of it

Three bytes are four characters of six bits each; one or two bytes left
over are padded to four. `atob` is forgiving: it skips white space, and
takes the padding off only where there is some to take. What is encoded
it gives back.
-/

namespace WaylandWebStream

namespace Base64

/-! ## The alphabet -/

/-- The character of six bits. -/
def char (n : ℕ) : Char :=
  if n < 26 then Char.ofNat (65 + n)
  else if n < 52 then Char.ofNat (71 + n)
  else if n < 62 then Char.ofNat (n - 4)
  else if n = 62 then '+' else '/'

/-- The six bits of a character, if it is of the alphabet. -/
def sextet (c : Char) : Option ℕ :=
  if 65 ≤ c.toNat ∧ c.toNat ≤ 90 then some (c.toNat - 65)
  else if 97 ≤ c.toNat ∧ c.toNat ≤ 122 then some (c.toNat - 71)
  else if 48 ≤ c.toNat ∧ c.toNat ≤ 57 then some (c.toNat + 4)
  else if c = '+' then some 62
  else if c = '/' then some 63 else none

/-- ASCII white space. -/
def isSpace (c : Char) : Bool :=
  c.toNat = 9 || c.toNat = 10 || c.toNat = 12 || c.toNat = 13 || c.toNat = 32

/-! ## Encoding -/

/-- The bytes in sixes of bits, the last filled up with zeros. -/
def sextets : Bytes → List ℕ
  | a :: b :: c :: bs =>
    a.toNat / 4 :: (a.toNat % 4 * 16 + b.toNat / 16) :: (b.toNat % 16 * 4 + c.toNat / 64) ::
      c.toNat % 64 :: sextets bs
  | [a, b] => [a.toNat / 4, a.toNat % 4 * 16 + b.toNat / 16, b.toNat % 16 * 4]
  | [a] => [a.toNat / 4, a.toNat % 4 * 16]
  | [] => []

/-- What makes the characters a multiple of four. -/
def padding (length : ℕ) : List Char := List.replicate ((3 - length % 3) % 3) '='

def encode (bs : Bytes) : String := String.ofList ((sextets bs).map char ++ padding bs.length)

/-! ## Decoding -/

/-- Takes one or two `=` off the end. -/
def stripPadding (cs : List Char) : List Char :=
  match cs.reverse with
  | '=' :: '=' :: rest => rest.reverse
  | '=' :: rest => rest.reverse
  | _ => cs

/-- Sixes of bits in whole bytes; the bits left over are dropped. -/
def bytes : List ℕ → Bytes
  | p :: q :: r :: s :: rest =>
    UInt8.ofNat (p * 4 + q / 16) :: UInt8.ofNat (q % 16 * 16 + r / 4) ::
      UInt8.ofNat (r % 4 * 64 + s) :: bytes rest
  | [p, q, r] => [UInt8.ofNat (p * 4 + q / 16), UInt8.ofNat (q % 16 * 16 + r / 4)]
  | [p, q] => [UInt8.ofNat (p * 4 + q / 16)]
  | [_] | [] => []

/-- **Decoding as scripts do it**, the binary string as its bytes. -/
def atob (s : String) : Option Bytes :=
  let data := s.toList.filter fun c => !isSpace c
  let data := if data.length % 4 = 0 then stripPadding data else data
  if data.length % 4 = 1 then none else (data.mapM sextet).map bytes

/-! ## The round trip -/

section RoundTrip

variable {bs : Bytes} {n : ℕ}

theorem sextet_char (h : n < 64) : sextet (char n) = some n := by
  revert n
  decide

theorem isSpace_char (h : n < 64) : isSpace (char n) = false := by
  revert n
  decide

theorem char_ne_pad (h : n < 64) : char n ≠ '=' := by
  revert n
  decide

theorem sextets_lt (bs : Bytes) : ∀ n ∈ sextets bs, n < 64 := by
  induction bs using sextets.induct with
  | case1 a b c bs ih =>
    have ha := a.toNat_lt
    have hb := b.toNat_lt
    have hc := c.toNat_lt
    simp only [sextets, List.mem_cons]
    rintro n (rfl | rfl | rfl | rfl | hn)
    · omega
    · omega
    · omega
    · omega
    · exact ih n hn
  | case2 a b =>
    have ha := a.toNat_lt
    have hb := b.toNat_lt
    simp only [sextets, List.mem_cons, List.not_mem_nil, or_false]
    rintro n (rfl | rfl | rfl) <;> omega
  | case3 a =>
    have ha := a.toNat_lt
    simp only [sextets, List.mem_cons, List.not_mem_nil, or_false]
    rintro n (rfl | rfl) <;> omega
  | case4 => exact fun n hn => absurd hn List.not_mem_nil

/-- How many sixes of bits there are: with the padding, a multiple of four. -/
theorem length_sextets (bs : Bytes) :
    (sextets bs).length = 4 * (bs.length / 3) + (if bs.length % 3 = 0 then 0
      else bs.length % 3 + 1) := by
  induction bs using sextets.induct with
  | case1 a b c bs ih =>
    simp only [sextets, List.length_cons]
    rw [ih]
    have hmod : (bs.length + 1 + 1 + 1) % 3 = bs.length % 3 := by omega
    rw [hmod]
    omega
  | case2 a b => simp [sextets]
  | case3 a => simp [sextets]
  | case4 => rfl

/-- The bytes are what their sixes of bits make. -/
theorem bytes_sextets (bs : Bytes) : bytes (sextets bs) = bs := by
  induction bs using sextets.induct with
  | case1 a b c bs ih =>
    have ha := a.toNat_lt
    have hb := b.toNat_lt
    have hc := c.toNat_lt
    have hfirst : a.toNat / 4 * 4 + (a.toNat % 4 * 16 + b.toNat / 16) / 16 = a.toNat := by omega
    have hsecond : (a.toNat % 4 * 16 + b.toNat / 16) % 16 * 16 +
        (b.toNat % 16 * 4 + c.toNat / 64) / 4 = b.toNat := by omega
    have hthird : (b.toNat % 16 * 4 + c.toNat / 64) % 4 * 64 + c.toNat % 64 = c.toNat := by omega
    simp only [sextets, bytes, hfirst, hsecond, hthird, UInt8.ofNat_toNat, ih]
  | case2 a b =>
    have ha := a.toNat_lt
    have hb := b.toNat_lt
    have hfirst : a.toNat / 4 * 4 + (a.toNat % 4 * 16 + b.toNat / 16) / 16 = a.toNat := by omega
    have hsecond : (a.toNat % 4 * 16 + b.toNat / 16) % 16 * 16 + b.toNat % 16 * 4 / 4 =
        b.toNat := by omega
    simp only [sextets, bytes, hfirst, hsecond, UInt8.ofNat_toNat]
  | case3 a =>
    have ha := a.toNat_lt
    have hfirst : a.toNat / 4 * 4 + a.toNat % 4 * 16 / 16 = a.toNat := by omega
    simp only [sextets, bytes, hfirst, UInt8.ofNat_toNat]
  | case4 => rfl

/-- Characters of the alphabet are read as what they stand for. -/
theorem mapM_sextet {ns : List ℕ} (h : ∀ n ∈ ns, n < 64) :
    (ns.map char).mapM sextet = some ns := by
  induction ns with
  | nil => rfl
  | cons n ns ih =>
    rw [List.map_cons, List.mapM_cons, sextet_char (h n List.mem_cons_self),
      ih fun m hm => h m (List.mem_cons_of_mem _ hm)]
    rfl

/-- Nothing but padding is stripped. -/
theorem stripPadding_append {ns : List ℕ} (h : ∀ n ∈ ns, n < 64) {k : ℕ} (hk : k ≤ 2) :
    stripPadding (ns.map char ++ List.replicate k '=') = ns.map char := by
  -- no character of the alphabet is a pad, so the match stops there
  have hlast : ∀ c ∈ (ns.map char).reverse, c ≠ '=' := by
    intro c hc
    obtain ⟨n, hn, rfl⟩ := List.mem_map.1 (List.mem_reverse.1 hc)
    exact char_ne_pad (h n hn)
  rw [stripPadding, List.reverse_append, List.reverse_replicate]
  rcases hrev : (ns.map char).reverse with _ | ⟨c, cs⟩
  · have hnil : ns.map char = [] := List.reverse_eq_nil_iff.1 hrev
    rw [hnil]
    interval_cases k <;> rfl
  · have hc : c ≠ '=' := hlast c (hrev ▸ List.mem_cons_self)
    have hback : (c :: cs).reverse = ns.map char := by rw [← hrev, List.reverse_reverse]
    interval_cases k
    · simp only [List.replicate_zero, List.nil_append, List.append_nil]
      split
      · next heq => exact absurd (List.cons.inj heq).1 hc
      · next heq => exact absurd (List.cons.inj heq).1 hc
      · rfl
    · simpa [hc] using hback
    · simpa using hback

/-- **What is encoded is given back.** -/
theorem atob_encode (bs : Bytes) : atob (encode bs) = some bs := by
  have hlt := sextets_lt bs
  have hlength := length_sextets bs
  have hpad : (3 - bs.length % 3) % 3 ≤ 2 := by omega
  have hdata : (encode bs).toList.filter (fun c => !isSpace c) =
      (sextets bs).map char ++ padding bs.length := by
    rw [encode, String.toList_ofList, List.filter_eq_self]
    intro c hc
    rcases List.mem_append.1 hc with hc | hc
    · obtain ⟨n, hn, rfl⟩ := List.mem_map.1 hc
      rw [isSpace_char (hlt n hn)]
      rfl
    · rw [List.eq_of_mem_replicate hc]
      rfl
  have hfour : ((sextets bs).map char ++ padding bs.length).length % 4 = 0 := by
    rw [List.length_append, List.length_map, padding, List.length_replicate, hlength]
    split <;> omega
  have hone : ((sextets bs).map char).length % 4 ≠ 1 := by
    rw [List.length_map, hlength]
    split <;> omega
  simp only [atob, hdata, if_pos hfour]
  rw [padding, stripPadding_append hlt hpad, if_neg hone, mapM_sextet hlt, Option.map_some,
    bytes_sextets]

end RoundTrip

end Base64

end WaylandWebStream
