import Mathlib.Logic.Function.Basic
import Mathlib.Data.List.Basic

/-!
  EncointerWorker.Lib.Code — self-delimiting codes over an ARBITRARY alphabet `β`.

  An encoder `enc : α → List β` is SELF-DELIMITING when a code word can always be split off
  the front of a message: `enc a ++ r = enc b ++ r'` forces `a = b` and `r = r'`.  This is
  injectivity and prefix-freedom at once, and it is exactly what a concatenation of encoded
  fields needs in order to parse back into its fields: the word of the first field splits
  off, then the word of the second, and so on.

  Main results:
    * `SelfDelimiting.of_decode` — a code with a prefix decoder is self-delimiting.
    * `SelfDelimiting.of_length` — so is an injective code of fixed width.
    * `SelfDelimiting.flatMap_append_inj` — runs of words of the same count split off.
    * `unaryCode_selfDelimiting` — the unary code of the naturals.
-/

namespace EncointerWorker.Lib

variable {α β γ : Type}

/-! ## §1. Self-delimiting codes. -/

/-- `enc` is self-delimiting: a code word splits off the front of any message. -/
def SelfDelimiting (enc : α → List β) : Prop :=
  ∀ a b r r', enc a ++ r = enc b ++ r' → a = b ∧ r = r'

namespace SelfDelimiting

variable {enc : α → List β}

theorem injective (h : SelfDelimiting enc) : Function.Injective enc := by
  intro a b hab
  have hmsg : enc a ++ [] = enc b ++ [] := by rw [hab]
  exact (h a b [] [] hmsg).1

/-- A code whose words a decoder reads off the front of any message. -/
theorem of_decode (dec : List β → Option (α × List β))
    (hdec : ∀ a r, dec (enc a ++ r) = some (a, r)) : SelfDelimiting enc := by
  intro a b r r' hmsg
  have hread : some (a, r) = some (b, r') := by
    rw [← hdec a r, ← hdec b r', hmsg]
  simpa only [Option.some.injEq, Prod.mk.injEq] using hread

/-- An injective code whose words all have the same length. -/
theorem of_length {n : Nat} (hlen : ∀ a, (enc a).length = n) (hinj : Function.Injective enc) :
    SelfDelimiting enc := by
  intro a b r r' hmsg
  obtain ⟨hword, hrest⟩ := List.append_inj hmsg (by rw [hlen, hlen])
  exact ⟨hinj hword, hrest⟩

/-- A self-delimiting code read through an injective map. -/
theorem comap (h : SelfDelimiting enc) {f : γ → α} (hf : Function.Injective f) :
    SelfDelimiting (enc ∘ f) := by
  intro a b r r' hmsg
  obtain ⟨hab, hrest⟩ := h (f a) (f b) r r' hmsg
  exact ⟨hf hab, hrest⟩

/-- Two runs of the same number of words split off the front of a message word by word. -/
theorem flatMap_append_inj (h : SelfDelimiting enc) :
    ∀ {xs ys : List α} {r r' : List β}, xs.length = ys.length →
      xs.flatMap enc ++ r = ys.flatMap enc ++ r' → xs = ys ∧ r = r'
  | [], [], _, _, _, hmsg => ⟨rfl, by simpa using hmsg⟩
  | x :: xs, y :: ys, r, r', hlen, hmsg => by
    -- the first words split off, then the rest of the runs by induction
    rw [List.flatMap_cons, List.flatMap_cons, List.append_assoc, List.append_assoc] at hmsg
    obtain ⟨rfl, hrest⟩ := h x y _ _ hmsg
    obtain ⟨rfl, rfl⟩ := flatMap_append_inj h (Nat.succ.inj hlen) hrest
    exact ⟨rfl, rfl⟩

end SelfDelimiting

/-! ## §2. The unary code. -/

/-- `n` copies of the letter `one`, closed by the letter `zero`. -/
def unaryCode (one zero : β) (n : Nat) : List β := List.replicate n one ++ [zero]

/-- Reads a unary word off the front of a message. -/
def decodeUnary [DecidableEq β] (one zero : β) : List β → Option (Nat × List β)
  | [] => none
  | b :: rest =>
    if b = zero then some (0, rest)
    else if b = one then (decodeUnary one zero rest).map fun (n, r) => (n + 1, r)
    else none

theorem decodeUnary_unaryCode [DecidableEq β] {one zero : β} (hne : one ≠ zero) (n : Nat)
    (r : List β) : decodeUnary one zero (unaryCode one zero n ++ r) = some (n, r) := by
  induction n with
  | zero => simp [unaryCode, decodeUnary]
  | succ n ih =>
    have hcons : unaryCode one zero (n + 1) ++ r = one :: (unaryCode one zero n ++ r) := by
      simp [unaryCode, List.replicate_succ]
    rw [hcons, decodeUnary, if_neg hne, if_pos rfl, ih]
    rfl

theorem unaryCode_selfDelimiting [DecidableEq β] {one zero : β} (hne : one ≠ zero) :
    SelfDelimiting (unaryCode one zero) :=
  SelfDelimiting.of_decode (decodeUnary one zero) (decodeUnary_unaryCode hne)

end EncointerWorker.Lib
