import Mathlib.Data.List.Basic

/-!
# Opening a session on a Belgian eID card

`open_beid_session(lib_location, slot_no=None)` of `pdfstamp.beid`. The `pkcs11` library is not
among the sources: `lib.get_slots()` is modelled by the slot list it returns, a slot by what its
`get_token()` does (it returns a token or raises `PKCS11Error`), and a token by the one attribute
the function reads, its `label`; tokens are of any type, with the label as a function.

Without `slot_no` the function scans the slots, keeping in `token` the last token a slot
returned and stopping at the first labelled `BELPIC`; it raises only when `token` is still
`None`. So the scan opens the first `BELPIC` token when there is one, and otherwise the last
token any slot returned, whatever its label (`scanSlots_eq`).
-/

namespace PyHanko

set_option autoImplicit false

/-- `pkcs11.PKCS11Error`, with its message. -/
structure PKCS11Error where
  msg : String
  deriving DecidableEq, Repr

/-- The exceptions `open_beid_session` raises. -/
inductive BeidError where
  | pkcs11Error (e : PKCS11Error)
  /-- `slots[slot_no]` past either end of the slot list. -/
  | indexError
  deriving DecidableEq, Repr

/-- A slot, as what its `get_token()` does. -/
abbrev Slot (Token : Type) := Except PKCS11Error Token

/-- The session `token.open()` opens on a token. -/
structure Session (Token : Type) where
  token : Token
  deriving DecidableEq, Repr

/-- Python's `xs[i]` on a list: a negative index counts from the end; `none` where it raises
`IndexError`. -/
def pyIndex {α : Type} (xs : List α) (i : Int) : Option α :=
  if 0 ≤ i then xs[i.toNat]?
  else if 0 ≤ xs.length + i then xs[(xs.length + i).toNat]?
  else none

/-- Python's `xs[i]` is defined exactly for `-len(xs) ≤ i < len(xs)`, and is then the element
at `i mod len(xs)`. -/
theorem pyIndex_eq {α : Type} (xs : List α) (i : Int) :
    pyIndex xs i = if -(xs.length : Int) ≤ i ∧ i < xs.length then xs[(i % xs.length).toNat]?
      else none := by
  unfold pyIndex
  by_cases h0 : 0 ≤ i
  · by_cases hlt : i < xs.length
    · rw [if_pos h0, if_pos ⟨by omega, hlt⟩, Int.emod_eq_of_lt h0 hlt]
    · rw [if_pos h0, if_neg (by omega), List.getElem?_eq_none (by omega)]
  · by_cases hge : 0 ≤ xs.length + i
    · have hmod : i % xs.length = xs.length + i := by
        rw [← Int.add_mul_emod_self_left i xs.length 1, Int.mul_one, Int.add_comm,
          Int.emod_eq_of_lt hge (by omega)]
      rw [if_neg h0, if_pos hge, if_pos ⟨by omega, by omega⟩, hmod]
    · rw [if_neg h0, if_neg hge, if_neg (by omega)]

section Scan

variable {Token : Type} (label : Token → String)

/-- The loop `for slot in slots: try: token = slot.get_token(); if token.label == 'BELPIC':
break; except pkcs11.PKCS11Error: continue`, from the value `token` holds before it. -/
def scanSlots : Option Token → List (Slot Token) → Option Token
  | token, [] => token
  | token, .error _ :: slots => scanSlots token slots
  | _, .ok t :: slots => if label t = "BELPIC" then some t else scanSlots (some t) slots

/-- `open_beid_session(lib, slot_no)` on a library whose `get_slots()` returns `slots`. -/
def openBeidSession (slots : List (Slot Token)) (slotNo : Option Int) :
    Except BeidError (Session Token) :=
  match slotNo with
  | none =>
    match scanSlots label none slots with
    | none => .error (.pkcs11Error ⟨"No BELPIC token found"⟩)
    | some token => .ok ⟨token⟩
  | some n =>
    match pyIndex slots n with
    | none => .error .indexError
    | some (.error e) => .error (.pkcs11Error e)
    | some (.ok token) =>
      if label token ≠ "BELPIC" then
        .error (.pkcs11Error ⟨"Token in slot " ++ toString n ++ " is not BELPIC."⟩)
      else .ok ⟨token⟩

/-- The tokens the slots return, in slot order; the slots that raise are skipped. -/
def yieldedTokens (slots : List (Slot Token)) : List Token := slots.filterMap Except.toOption

/-- Whether a token is an eID card's. -/
def isBelpic (t : Token) : Bool := label t == "BELPIC"

@[simp] theorem yieldedTokens_nil : yieldedTokens ([] : List (Slot Token)) = [] := rfl

@[simp] theorem yieldedTokens_error (e : PKCS11Error) (slots : List (Slot Token)) :
    yieldedTokens (.error e :: slots) = yieldedTokens slots := rfl

@[simp] theorem yieldedTokens_ok (t : Token) (slots : List (Slot Token)) :
    yieldedTokens (.ok t :: slots) = t :: yieldedTokens slots := rfl

/-- The scan ends on the first `BELPIC` token the slots return; failing one, on the last token
they return; failing any, on what `token` held before. -/
theorem scanSlots_eq (token : Option Token) (slots : List (Slot Token)) :
    scanSlots label token slots = ((yieldedTokens slots).find? (isBelpic label)).or
      ((yieldedTokens slots).getLast?.or token) := by
  induction slots generalizing token with
  | nil => rfl
  | cons slot slots ih =>
    cases slot with
    | error e => exact ih token
    | ok t =>
      by_cases ht : label t = "BELPIC"
      · simp [scanSlots, ht, isBelpic]
      · have hne : isBelpic label t = false := by simpa [isBelpic] using ht
        simp only [scanSlots, ht, if_false, ih, yieldedTokens_ok, List.find?_cons, hne,
          List.getLast?_cons]
        cases (yieldedTokens slots).getLast? <;> rfl

theorem openBeidSession_none_some {slots : List (Slot Token)} {t : Token}
    (h : scanSlots label none slots = some t) : openBeidSession label slots none = .ok ⟨t⟩ := by
  simp only [openBeidSession, h]

theorem openBeidSession_none_none {slots : List (Slot Token)}
    (h : scanSlots label none slots = none) :
    openBeidSession label slots none = .error (.pkcs11Error ⟨"No BELPIC token found"⟩) := by
  simp only [openBeidSession, h]

/-- When some slot returns a `BELPIC` token, the session is on the first such token. -/
theorem openBeidSession_first_belpic {slots : List (Slot Token)} {t : Token}
    (h : (yieldedTokens slots).find? (isBelpic label) = some t) :
    openBeidSession label slots none = .ok ⟨t⟩ :=
  openBeidSession_none_some label (by rw [scanSlots_eq, h]; rfl)

/-- When no slot returns a `BELPIC` token but some slot returns a token, the session is on the
last token returned, which is not an eID card's. -/
theorem openBeidSession_last_token {slots : List (Slot Token)} {t : Token}
    (hnone : ∀ u ∈ yieldedTokens slots, label u ≠ "BELPIC")
    (hlast : (yieldedTokens slots).getLast? = some t) :
    openBeidSession label slots none = .ok ⟨t⟩ ∧ label t ≠ "BELPIC" := by
  have hfind : (yieldedTokens slots).find? (isBelpic label) = none :=
    List.find?_eq_none.mpr fun u hu => by simpa [isBelpic] using hnone u hu
  exact ⟨openBeidSession_none_some label (by rw [scanSlots_eq, hfind, hlast]; rfl),
    hnone t (List.mem_of_getLast?_eq_some hlast)⟩

theorem openBeidSession_none_raises_iff (slots : List (Slot Token)) :
    (∃ e, openBeidSession label slots none = .error e) ↔ yieldedTokens slots = [] := by
  cases hs : scanSlots label none slots with
  | none =>
    rw [openBeidSession_none_none label hs]
    rw [scanSlots_eq, Option.or_none, Option.or_eq_none, List.getLast?_eq_none_iff] at hs
    exact ⟨fun _ => hs.2, fun _ => ⟨_, rfl⟩⟩
  | some t =>
    rw [openBeidSession_none_some label hs]
    refine ⟨fun ⟨_, h⟩ => (by cases h), fun h => ?_⟩
    rw [scanSlots_eq, h] at hs
    cases hs

/-- For every slot list and every `slot_no`, what `open_beid_session(lib, slot_no)` does.
Without `slot_no`: a session on the first `BELPIC` token the slots return or, failing one, on
the last token they return, and `PKCS11Error('No BELPIC token found')` exactly when no slot
returns a token. With `slot_no = n`: `IndexError` exactly when `n` is outside
`[-len(slots), len(slots))`; otherwise the slot at `n mod len(slots)` decides: its
`PKCS11Error`, a session on its token when that is labelled `BELPIC`, and
`PKCS11Error('Token in slot n is not BELPIC.')` for any other label. -/
theorem openBeidSession_spec (slots : List (Slot Token)) :
    (∀ t, ((yieldedTokens slots).find? (isBelpic label)).or (yieldedTokens slots).getLast? =
        some t → openBeidSession label slots none = .ok ⟨t⟩) ∧
    ((∃ e, openBeidSession label slots none = .error e) ↔ yieldedTokens slots = []) ∧
    (yieldedTokens slots = [] →
      openBeidSession label slots none = .error (.pkcs11Error ⟨"No BELPIC token found"⟩)) ∧
    ∀ n : Int,
      (¬ (-(slots.length : Int) ≤ n ∧ n < slots.length) →
        openBeidSession label slots (some n) = .error .indexError) ∧
      (∀ e, -(slots.length : Int) ≤ n → n < slots.length →
        slots[(n % slots.length).toNat]? = some (.error e) →
        openBeidSession label slots (some n) = .error (.pkcs11Error e)) ∧
      (∀ t, -(slots.length : Int) ≤ n → n < slots.length →
        slots[(n % slots.length).toNat]? = some (.ok t) →
        openBeidSession label slots (some n) = if label t = "BELPIC" then .ok ⟨t⟩
          else .error (.pkcs11Error ⟨"Token in slot " ++ toString n ++ " is not BELPIC."⟩)) := by
  have hscan : scanSlots label none slots =
      ((yieldedTokens slots).find? (isBelpic label)).or (yieldedTokens slots).getLast? := by
    rw [scanSlots_eq, Option.or_none]
  refine ⟨fun t ht => openBeidSession_none_some label (hscan.trans ht),
    openBeidSession_none_raises_iff label slots, fun h => openBeidSession_none_none label ?_,
    fun n => ⟨fun hout => ?_, fun e hlo hhi he => ?_, fun t hlo hhi ht => ?_⟩⟩
  · rw [hscan, h]; rfl
  · simp only [openBeidSession, pyIndex_eq, if_neg hout]
  · simp only [openBeidSession, pyIndex_eq, if_pos (And.intro hlo hhi), he]
  · simp only [openBeidSession, pyIndex_eq, if_pos (And.intro hlo hhi), ht]
    by_cases hb : label t = "BELPIC" <;> simp [hb]

end Scan

/-- One slot, whose token is a card labelled `Java Card`: no slot holds a `BELPIC` token, yet
`open_beid_session(lib)` opens a session on that card instead of raising `PKCS11Error('No
BELPIC token found')`. -/
theorem openBeidSession_opens_non_belpic :
    (∀ t ∈ yieldedTokens [(.ok "Java Card" : Slot String)], t ≠ "BELPIC") ∧
    openBeidSession (fun t : String => t) [.ok "Java Card"] none = .ok ⟨"Java Card"⟩ :=
  have hnone : ∀ t ∈ yieldedTokens [(.ok "Java Card" : Slot String)], t ≠ "BELPIC" := by decide
  ⟨hnone, (openBeidSession_last_token (fun t : String => t) hnone rfl).1⟩

end PyHanko
