/-
SHA-256 and HMAC-SHA-256 (`hashlib.sha256`, `hmac.new(key, msg, hashlib.sha256)`).

Words are natural numbers below `2 ^ 32`, so the kernel can evaluate a digest.

* `sha256Hex_hex` — a hex digest is 64 characters out of `0-9a-f`.
-/
import SzlRouter.PyStr

namespace Py

namespace Sha256

/-- The round constants. -/
def K : List ℕ :=
  [0x428a2f98, 0x71374491, 0xb5c0fbcf, 0xe9b5dba5, 0x3956c25b, 0x59f111f1, 0x923f82a4, 0xab1c5ed5,
    0xd807aa98, 0x12835b01, 0x243185be, 0x550c7dc3, 0x72be5d74, 0x80deb1fe, 0x9bdc06a7, 0xc19bf174,
    0xe49b69c1, 0xefbe4786, 0x0fc19dc6, 0x240ca1cc, 0x2de92c6f, 0x4a7484aa, 0x5cb0a9dc, 0x76f988da,
    0x983e5152, 0xa831c66d, 0xb00327c8, 0xbf597fc7, 0xc6e00bf3, 0xd5a79147, 0x06ca6351, 0x14292967,
    0x27b70a85, 0x2e1b2138, 0x4d2c6dfc, 0x53380d13, 0x650a7354, 0x766a0abb, 0x81c2c92e, 0x92722c85,
    0xa2bfe8a1, 0xa81a664b, 0xc24b8b70, 0xc76c51a3, 0xd192e819, 0xd6990624, 0xf40e3585, 0x106aa070,
    0x19a4c116, 0x1e376c08, 0x2748774c, 0x34b0bcb5, 0x391c0cb3, 0x4ed8aa4a, 0x5b9cca4f, 0x682e6ff3,
    0x748f82ee, 0x78a5636f, 0x84c87814, 0x8cc70208, 0x90befffa, 0xa4506ceb, 0xbef9a3f7, 0xc67178f2]

/-- The chaining value: eight words. -/
structure Words where
  a : ℕ
  b : ℕ
  c : ℕ
  d : ℕ
  e : ℕ
  f : ℕ
  g : ℕ
  h : ℕ

def initial : Words where
  a := 0x6a09e667
  b := 0xbb67ae85
  c := 0x3c6ef372
  d := 0xa54ff53a
  e := 0x510e527f
  f := 0x9b05688c
  g := 0x1f83d9ab
  h := 0x5be0cd19

/-- Addition of words. -/
def add (x y : ℕ) : ℕ := (x + y) % 2 ^ 32

def rotr (n x : ℕ) : ℕ := (x >>> n) ||| ((x <<< (32 - n)) % 2 ^ 32)

def bigSigma0 (x : ℕ) : ℕ := (rotr 2 x).xor ((rotr 13 x).xor (rotr 22 x))

def bigSigma1 (x : ℕ) : ℕ := (rotr 6 x).xor ((rotr 11 x).xor (rotr 25 x))

def sigma0 (x : ℕ) : ℕ := (rotr 7 x).xor ((rotr 18 x).xor (x >>> 3))

def sigma1 (x : ℕ) : ℕ := (rotr 17 x).xor ((rotr 19 x).xor (x >>> 10))

def ch (x y z : ℕ) : ℕ := (x.land y).xor ((2 ^ 32 - 1 - x).land z)

def maj (x y z : ℕ) : ℕ := (x.land y).xor ((x.land z).xor (y.land z))

/-- One round, with its constant and its schedule word. -/
def round (v : Words) (k w : ℕ) : Words :=
  let t1 := add (add v.h (bigSigma1 v.e)) (add (ch v.e v.f v.g) (add k w))
  let t2 := add (bigSigma0 v.a) (maj v.a v.b v.c)
  ⟨add t1 t2, v.a, v.b, v.c, add v.d t1, v.e, v.f, v.g⟩

/-- The next schedule word, from the sixteen before it, oldest first. -/
def nextWord (w : List ℕ) : ℕ :=
  add (add (sigma1 (w.getD 14 0)) (w.getD 9 0)) (add (sigma0 (w.getD 1 0)) (w.getD 0 0))

/-- The rounds for a list of constants; `w` holds sixteen schedule words, the next
one to use first. -/
def rounds : List ℕ → List ℕ → Words → Words
  | [], _, v => v
  | k :: ks, w, v => rounds ks (w.tail ++ [nextWord w]) (round v k (w.headD 0))

/-- The chaining value after one block of sixteen words. -/
def compress (v : Words) (block : List ℕ) : Words :=
  let u := rounds K block v
  ⟨add v.a u.a, add v.b u.b, add v.c u.c, add v.d u.d, add v.e u.e, add v.f u.f, add v.g u.g,
    add v.h u.h⟩

/-- The big-endian words of a byte string. -/
def words : Bytes → List ℕ
  | a :: b :: c :: d :: bs =>
    (((a.val * 256 + b.val) * 256 + c.val) * 256 + d.val) :: words bs
  | _ => []

/-- The message with its padding: a one bit, zeros, and the length in bits. -/
def pad (m : Bytes) : Bytes :=
  let zeros := (119 - m.length % 64) % 64
  m ++ byte 0x80 :: List.replicate zeros 0 ++
    [56, 48, 40, 32, 24, 16, 8, 0].map fun s => byte ((8 * m.length) >>> s)

/-- Blocks of sixteen words; the fuel is the number of words. -/
def blocks : ℕ → List ℕ → Words → Words
  | 0, _, v => v
  | _, [], v => v
  | n + 1, ws, v => blocks n (ws.drop 16) (compress v (ws.take 16))

/-- The eight words of the digest. -/
def digestWords (m : Bytes) : List ℕ :=
  let ws := words (pad m)
  let v := blocks ws.length ws initial
  [v.a, v.b, v.c, v.d, v.e, v.f, v.g, v.h]

/-- The bytes of a word, most significant first. -/
def wordBytes (w : ℕ) : Bytes := [24, 16, 8, 0].map fun s => byte (w >>> s)

end Sha256

/-- `hashlib.sha256(m).digest()`. -/
def sha256 (m : Bytes) : Bytes := (Sha256.digestWords m).flatMap Sha256.wordBytes

/-- A lower-case hex digit. -/
def hexDigit (n : Fin 16) : CodePoint :=
  if n.val < 10 then ⟨48 + n.val, by omega⟩ else ⟨87 + n.val, by omega⟩

/-- `b.hex()`. -/
def hex (bs : Bytes) : Str :=
  bs.flatMap fun b => [hexDigit ⟨b.val / 16, by omega⟩, hexDigit ⟨b.val % 16, by omega⟩]

/-- `hashlib.sha256(m).hexdigest()`. -/
def sha256Hex (m : Bytes) : Str := hex (sha256 m)

/-- `hmac.new(key, m, hashlib.sha256).hexdigest()`. -/
def hmacSha256Hex (key m : Bytes) : Str :=
  let key := if 64 < key.length then sha256 key else key
  let key := key ++ List.replicate (64 - key.length) 0
  let xored (n : ℕ) : Bytes := key.map fun b => byte (b.val.xor n)
  sha256Hex (xored 0x5c ++ sha256 (xored 0x36 ++ m))

/-- `re.fullmatch("[0-9a-f]{64}", s)`. -/
def isHexDigest (s : Str) : Bool :=
  decide (s.length = 64) && s.all fun c =>
    (48 ≤ c.val && c.val ≤ 57) || (97 ≤ c.val && c.val ≤ 102)

/-- A hexadecimal digest is a text of ASCII characters. -/
theorem isHexDigest_lt {s : Str} (h : isHexDigest s = true) : ∀ c ∈ s, c.val < 128 := by
  rw [isHexDigest, Bool.and_eq_true, List.all_eq_true] at h
  intro c hc
  have hchar := h.2 c hc
  simp only [Bool.or_eq_true, Bool.and_eq_true, decide_eq_true_eq] at hchar
  omega

theorem length_sha256 (m : Bytes) : (sha256 m).length = 32 := rfl

theorem length_hex (bs : Bytes) : (hex bs).length = 2 * bs.length := by
  induction bs with
  | nil => rfl
  | cons b bs ih =>
    rw [hex, List.flatMap_cons, List.length_append, ← hex, ih, List.length_cons]
    simp only [List.length_cons, List.length_nil]
    omega

theorem hexDigit_range (n : Fin 16) :
    (48 ≤ (hexDigit n).val ∧ (hexDigit n).val ≤ 57) ∨
      (97 ≤ (hexDigit n).val ∧ (hexDigit n).val ≤ 102) := by
  rw [hexDigit]
  split_ifs with h
  · exact .inl ⟨by simp, by simp; omega⟩
  · exact .inr ⟨by simp; omega, by simp; omega⟩

/-- A hex digest has 64 characters out of `0-9a-f`: two for each of the 32 bytes. -/
theorem sha256Hex_hex (m : Bytes) : isHexDigest (sha256Hex m) = true := by
  have hlen : (sha256Hex m).length = 64 := by rw [sha256Hex, length_hex, length_sha256]
  rw [isHexDigest, hlen, decide_eq_true rfl, Bool.true_and, List.all_eq_true]
  intro c hc
  obtain ⟨b, _, hb⟩ := List.mem_flatMap.mp hc
  have hdigit : ∃ n : Fin 16, c = hexDigit n := by
    rcases List.mem_cons.mp hb with rfl | hb
    · exact ⟨_, rfl⟩
    · exact ⟨_, List.mem_singleton.mp hb⟩
  obtain ⟨n, rfl⟩ := hdigit
  simpa [Bool.or_eq_true, Bool.and_eq_true] using hexDigit_range n

example : sha256Hex ((utf8 (lit "abc")).getD []) =
    lit "ba7816bf8f01cfea414140de5dae2223b00361a396177a9cb410ff61f20015ad" := by decide +kernel

end Py
