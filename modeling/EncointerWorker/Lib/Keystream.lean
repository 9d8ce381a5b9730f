import Mathlib.Data.List.Basic

/-!
  EncointerWorker.Lib.Keystream — a synchronous stream cipher in output feedback (OFB) mode
  over an ABSTRACT block function, and what XOR with a keystream hides and reveals.

  OFB iterates the keyed block function on the IV: `E iv, E (E iv), …`; the concatenated
  blocks are the keystream, and encryption and decryption are both XOR with its prefix of
  the data's length.  Nothing here depends on the block function but that its blocks are
  not empty.

  Main results:
    * `applyKeystream_applyKeystream` — applying the same keystream twice gives the data back.
    * `ofbKeystream_eq_take` — a shorter keystream is a prefix of a longer one: every message
      under one (key, IV) is XORed with the same stream.
    * `xorBytes_xorBytes_same` — two messages XORed with one stream: the XOR of the
      ciphertexts is the XOR of the plaintexts (the two-time pad).
    * `xorBytes_mask` — messages that differ by a mask `d` give the same ciphertexts under
      streams that differ by `d`: what XOR with one stream hides is exactly the mask.
-/

namespace EncointerWorker.Lib.Keystream

/-! ## §1. Bytewise XOR. -/

/-- Bytewise XOR, as long as the shorter input. -/
def xorBytes (a b : List UInt8) : List UInt8 := List.zipWith (· ^^^ ·) a b

@[simp] theorem xorBytes_nil_left (b : List UInt8) : xorBytes [] b = [] := rfl

@[simp] theorem xorBytes_nil_right (a : List UInt8) : xorBytes a [] = [] := by
  cases a <;> rfl

@[simp] theorem xorBytes_cons_cons (x y : UInt8) (a b : List UInt8) :
    xorBytes (x :: a) (y :: b) = (x ^^^ y) :: xorBytes a b := rfl

@[simp] theorem length_xorBytes (a b : List UInt8) :
    (xorBytes a b).length = min a.length b.length := List.length_zipWith

/-- XOR with a stream at least as long as the data is undone by XOR with it again. -/
theorem xorBytes_xorBytes_cancel {a k : List UInt8} (h : a.length ≤ k.length) :
    xorBytes (xorBytes a k) k = a := by
  induction a generalizing k with
  | nil => simp
  | cons x a ih =>
    cases k with
    | nil => simp at h
    | cons y k =>
      have hlen : a.length ≤ k.length := by simpa using h
      simp only [xorBytes_cons_cons, ih hlen, UInt8.xor_assoc, UInt8.xor_self, UInt8.xor_zero]

/-- The data only reads the stream's first `a.length` bytes. -/
theorem xorBytes_take {a k : List UInt8} {n : Nat} (h : a.length ≤ n) :
    xorBytes a (k.take n) = xorBytes a k := by
  induction a generalizing k n with
  | nil => simp
  | cons x a ih =>
    cases k with
    | nil => simp
    | cons y k =>
      obtain ⟨n, rfl⟩ : ∃ n', n = n' + 1 := ⟨n - 1, by simp at h; omega⟩
      have hlen : a.length ≤ n := by simpa using h
      simp [ih hlen]

/-- **The two-time pad.**  Two messages XORed with one stream: the XOR of the ciphertexts is
    the XOR of the plaintexts. -/
theorem xorBytes_xorBytes_same {a b k : List UInt8} (ha : a.length ≤ k.length)
    (hb : b.length ≤ k.length) :
    xorBytes (xorBytes a k) (xorBytes b k) = xorBytes a b := by
  induction a generalizing b k with
  | nil => simp
  | cons x a ih =>
    cases k with
    | nil => simp at ha
    | cons y k =>
      cases b with
      | nil => simp
      | cons z b =>
        have ha' : a.length ≤ k.length := by simpa using ha
        have hb' : b.length ≤ k.length := by simpa using hb
        -- `(x ^^^ y) ^^^ (z ^^^ y) = x ^^^ z`, the stream byte cancels
        have hbyte : x ^^^ y ^^^ (z ^^^ y) = x ^^^ z := by
          rw [UInt8.xor_comm z y, ← UInt8.xor_assoc, UInt8.xor_assoc x y y, UInt8.xor_self,
            UInt8.xor_zero]
        simp [ih ha' hb', hbyte]

/-- **Masking.**  If `a'` is `a` with the mask `d` applied, then `a` under the stream `k`
    and `a'` under the stream `k ^^^ d` give the same ciphertext. -/
theorem xorBytes_mask {a d k : List UInt8} (hd : a.length ≤ d.length) (hk : a.length ≤ k.length) :
    xorBytes a k = xorBytes (xorBytes a d) (xorBytes k d) := by
  induction a generalizing d k with
  | nil => simp
  | cons x a ih =>
    cases d with
    | nil => simp at hd
    | cons e d =>
      cases k with
      | nil => simp at hk
      | cons y k =>
        have hd' : a.length ≤ d.length := by simpa using hd
        have hk' : a.length ≤ k.length := by simpa using hk
        have hbyte : x ^^^ e ^^^ (y ^^^ e) = x ^^^ y := by
          rw [UInt8.xor_comm y e, ← UInt8.xor_assoc, UInt8.xor_assoc x e e, UInt8.xor_self,
            UInt8.xor_zero]
        simp [← ih hd' hk', hbyte]

/-! ## §2. The OFB keystream. -/

section Ofb

variable (E : List UInt8 → List UInt8)

/-- `n` OFB blocks from the register `x`: `E x, E (E x), …`. -/
def ofbBlocks : Nat → List UInt8 → List (List UInt8)
  | 0, _ => []
  | n + 1, x => E x :: ofbBlocks n (E x)

/-- The first `len` bytes of the OFB keystream from `iv` (one block per byte is enough when
    no block is empty). -/
def ofbKeystream (iv : List UInt8) (len : Nat) : List UInt8 :=
  ((ofbBlocks E len iv).flatten).take len

/-- `apply_keystream`: XOR the data with the OFB keystream of its length. -/
def applyKeystream (iv data : List UInt8) : List UInt8 :=
  xorBytes data (ofbKeystream E iv data.length)

variable {E}

theorem ofbBlocks_prefix {n m : Nat} (h : n ≤ m) (x : List UInt8) :
    ofbBlocks E n x <+: ofbBlocks E m x := by
  induction n generalizing m x with
  | zero => exact List.nil_prefix
  | succ n ih =>
    obtain ⟨m, rfl⟩ : ∃ m', m = m' + 1 := ⟨m - 1, by omega⟩
    exact List.cons_prefix_cons.mpr ⟨rfl, ih (m := m) (by omega) (E x)⟩

theorem le_length_flatten_ofbBlocks (hE : ∀ x, 0 < (E x).length) (n : Nat) (x : List UInt8) :
    n ≤ (ofbBlocks E n x).flatten.length := by
  induction n generalizing x with
  | zero => simp [ofbBlocks]
  | succ n ih =>
    have hblock := hE x
    have hrest := ih (E x)
    simp only [ofbBlocks, List.flatten_cons, List.length_append]
    omega

theorem length_ofbKeystream (hE : ∀ x, 0 < (E x).length) (iv : List UInt8) (len : Nat) :
    (ofbKeystream E iv len).length = len := by
  simp only [ofbKeystream, List.length_take]
  exact Nat.min_eq_left (le_length_flatten_ofbBlocks hE len iv)

/-- **One stream per (key, IV).**  A shorter keystream is a prefix of a longer one. -/
theorem ofbKeystream_eq_take (hE : ∀ x, 0 < (E x).length) (iv : List UInt8) {n m : Nat}
    (h : n ≤ m) : ofbKeystream E iv n = (ofbKeystream E iv m).take n := by
  obtain ⟨t, ht⟩ := ofbBlocks_prefix (E := E) h iv
  have hlen := le_length_flatten_ofbBlocks hE n iv
  unfold ofbKeystream
  rw [List.take_take, Nat.min_eq_left h, ← ht, List.flatten_append,
    List.take_append_of_le_length hlen]

/-- Applying the keystream twice gives the data back. -/
theorem applyKeystream_applyKeystream (hE : ∀ x, 0 < (E x).length) (iv data : List UInt8) :
    applyKeystream E iv (applyKeystream E iv data) = data := by
  have hlen : (xorBytes data (ofbKeystream E iv data.length)).length = data.length := by
    simp [length_ofbKeystream hE]
  unfold applyKeystream
  rw [hlen, xorBytes_xorBytes_cancel (Nat.le_of_eq (length_ofbKeystream hE iv _).symm)]

/-- Every message under one (key, IV) is XORed with the same stream, cut at any length
    covering it. -/
theorem applyKeystream_eq_xorBytes (hE : ∀ x, 0 < (E x).length) (iv data : List UInt8)
    {m : Nat} (h : data.length ≤ m) :
    applyKeystream E iv data = xorBytes data (ofbKeystream E iv m) := by
  unfold applyKeystream
  rw [ofbKeystream_eq_take hE iv h, xorBytes_take (Nat.le_refl _)]

end Ofb

end EncointerWorker.Lib.Keystream
