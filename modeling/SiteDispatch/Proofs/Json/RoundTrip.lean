/-
  SiteDispatch.Proofs.Json.RoundTrip

  A value that is written can be read back.

  The reader takes blanks, a value and leaves the rest. What is proved of a value is that it is
  read off wherever its written form stands after some blanks, provided that the text behind it
  cannot be taken for more digits. A list or an object has this property if its items or
  its members have it; the written form bounds how far the reader has to go down.
-/

import Mathlib.Data.List.Basic
import SiteDispatch.Json.Printer
import SiteDispatch.Json.Reader

namespace SiteDispatch
namespace Json

/-! ## Numbers -/

/-- A number may stand before `rest`: nothing there would be taken for a part of it. -/
def EndsNumber (rest : List Char) : Prop :=
  ∀ c ∈ rest.head?, c.isDigit = false ∧ c ≠ '.' ∧ c ≠ 'e' ∧ c ≠ 'E'

theorem endsNumber_nil : EndsNumber [] := nofun

theorem endsNumber_cons {c : Char} {rest : List Char}
    (hc : c.isDigit = false ∧ c ≠ '.' ∧ c ≠ 'e' ∧ c ≠ 'E') : EndsNumber (c :: rest) := by
  intro d hd
  rw [List.head?_cons, Option.mem_some] at hd
  exact hd ▸ hc

section Numbers

variable {rest : List Char}

theorem digits_append {ds : List Char} (hds : ∀ c ∈ ds, c.isDigit = true)
    (hrest : EndsNumber rest) : digits (ds ++ rest) = ds ∧ afterDigits (ds ++ rest) = rest := by
  have hnone : rest.takeWhile Char.isDigit = [] ∧ rest.dropWhile Char.isDigit = rest := by
    cases rest with
    | nil => exact ⟨rfl, rfl⟩
    | cons c rest => simp [(hrest c rfl).1]
  rw [digits, afterDigits, List.takeWhile_append_of_pos hds, List.dropWhile_append_of_pos hds,
    hnone.1, hnone.2, List.append_nil]
  exact ⟨rfl, rfl⟩

theorem scanFraction_of_endsNumber (hrest : EndsNumber rest) :
    scanFraction rest = some (false, rest) := by
  unfold scanFraction
  split
  · exact absurd rfl (hrest _ rfl).2.1
  · rfl

theorem scanExponent_of_endsNumber (hrest : EndsNumber rest) :
    scanExponent rest = some (false, rest) := by
  unfold scanExponent
  split
  · rw [if_neg]
    rintro (rfl | rfl)
    · exact (hrest _ rfl).2.2.1 rfl
    · exact (hrest _ rfl).2.2.2 rfl
  · rfl

/-- Only 0 is written with a leading 0. -/
theorem eq_zero_of_head?_toDigits (n : Nat) (h : (Nat.toDigits 10 n).head? = some '0') :
    n = 0 := by
  induction n using Nat.strongRecOn with
  | _ n ih =>
      by_cases hn : n < 10
      · rw [Nat.toDigits_of_lt_base hn] at h
        have hzero : ∀ d, d < 10 → Nat.digitChar d = '0' → d = 0 := by decide
        exact hzero n hn (Option.some.inj h)
      · -- The first digit is that of the quotient, which is not 0.
        rw [Nat.toDigits_of_base_le (by omega) (by omega),
          List.head?_append_of_ne_nil _ Nat.toDigits_ne_nil] at h
        have := ih (n / 10) (by omega) h
        omega

theorem scanUnsigned_toDigits (negative : Bool) (n : Nat) (hrest : EndsNumber rest)
    (hsign : negative = true → n ≠ 0) :
    scanUnsigned negative (Nat.toDigits 10 n ++ rest)
      = some (.integer (if negative then -(n : Int) else n), rest) := by
  have hdigits : ∀ c ∈ Nat.toDigits 10 n, c.isDigit = true :=
    fun c hc => Nat.isDigit_of_mem_toDigits (by decide) (by decide) hc
  obtain ⟨htaken, hleft⟩ := digits_append hdigits hrest
  have hvalue : Nat.ofDigitChars 10 (Nat.toDigits 10 n) 0 = n := Nat.ofDigitChars_ten_toDigits
  have hlead := eq_zero_of_head?_toDigits n
  rw [scanUnsigned, htaken, hleft]
  cases hform : Nat.toDigits 10 n with
  | nil => exact absurd hform Nat.toDigits_ne_nil
  | cons d ds =>
      rw [hform] at hvalue hlead
      have hplain : ¬ (d = '0' ∧ ds ≠ []) := by
        rintro ⟨rfl, hds⟩
        -- 0 is a single digit.
        rw [hlead rfl, Nat.toDigits_zero] at hform
        exact hds (List.cons.inj hform).2.symm
      have hinteger : ¬ (negative = true ∧ n = 0) := fun h => hsign h.1 h.2
      simp only [if_neg hplain, scanFraction_of_endsNumber hrest, scanExponent_of_endsNumber hrest,
        hvalue, Bool.false_or, Bool.and_eq_true, decide_eq_true_eq, if_neg hinteger]

theorem scanNumber_decimal (i : Int) (hrest : EndsNumber rest) :
    scanNumber (decimal i ++ rest) = some (.integer i, rest) := by
  unfold decimal
  split
  · rename_i hi
    show scanUnsigned true (Nat.toDigits 10 i.natAbs ++ rest) = _
    rw [scanUnsigned_toDigits true _ hrest (fun _ => by omega), if_pos rfl]
    congr
    omega
  · rename_i hi
    have hscan := scanUnsigned_toDigits false i.natAbs hrest nofun
    have hminus : '-' ∉ Nat.toDigits 10 i.natAbs := fun hmem =>
      absurd (Nat.isDigit_of_mem_toDigits (by decide) (by decide) hmem) (by decide)
    rw [scanNumber]
    · rw [hscan, if_neg Bool.false_ne_true, Int.natAbs_of_nonneg (by omega)]
    · -- A digit is not a sign.
      intro tail htail
      cases hform : Nat.toDigits 10 i.natAbs with
      | nil => exact Nat.toDigits_ne_nil hform
      | cons d ds =>
          rw [hform] at htail hminus
          exact hminus (List.mem_cons.2 (.inl (List.cons.inj htail).1.symm))

end Numbers

/-! ## Texts -/

/-- A text that stands for itself: without quotes, escapes and control characters. -/
def PlainText (literal : List Char) : Prop :=
  ∀ c ∈ literal, c ≠ '"' ∧ c ≠ '\\' ∧ 32 ≤ c.toNat

instance (literal : List Char) : Decidable (PlainText literal) :=
  List.decidableBAll _ literal

section Texts

variable {literal rest : List Char}

theorem scanText_of_plain (h : PlainText literal) :
    scanText (literal ++ '"' :: rest) = some (literal, rest) := by
  induction literal with
  | nil => rfl
  | cons c literal ih =>
      obtain ⟨hquote, hescape, hcontrol⟩ := h c List.mem_cons_self
      have hrest := ih fun d hd => h d (List.mem_cons_of_mem _ hd)
      have hnone : ¬ (decide (c.toNat < 32) || decide (c = '\\')) = true := by
        rw [Bool.or_eq_true, decide_eq_true_eq, decide_eq_true_eq, not_or]
        exact ⟨Nat.not_lt.2 hcontrol, hescape⟩
      rw [List.cons_append, scanText]
      · rw [if_neg hnone, hrest]
        rfl
      · exact hquote
      · exact fun _ _ _ _ _ heq _ => hescape heq
      · exact fun _ _ heq _ => hescape heq

theorem content?_of_plain (h : PlainText literal) : content? literal = some literal := by
  unfold content?
  induction literal with
  | nil => rfl
  | cons c literal ih =>
      obtain ⟨-, hescape, -⟩ := h c List.mem_cons_self
      have hrest := ih fun d hd => h d (List.mem_cons_of_mem _ hd)
      rw [unescape]
      · simp only [if_neg hescape, hrest]
        rfl
      · exact fun _ _ _ _ _ heq _ => hescape heq
      · exact fun _ _ heq _ => hescape heq

theorem plainText_decimal (i : Int) : PlainText (decimal i) := by
  have hdigits : PlainText (Nat.toDigits 10 i.natAbs) := by
    intro c hc
    have hdigit := Nat.isDigit_of_mem_toDigits (by decide) (by decide) hc
    rw [Char.isDigit_iff_toNat] at hdigit
    refine ⟨?_, ?_, ?_⟩
    · rintro rfl
      exact absurd hdigit (by decide)
    · rintro rfl
      exact absurd hdigit (by decide)
    · exact Nat.le_trans (by decide) hdigit.1
  unfold decimal
  split
  · exact List.forall_mem_cons.2 ⟨by decide, hdigits⟩
  · exact hdigits

end Texts

/-! ## Values -/

/-- A value that keeps its meaning when it is written: its texts stand for themselves and its
    numbers are integers. -/
inductive Plain : Json → Prop
  | null : Plain .null
  | bool (value : Bool) : Plain (.bool value)
  | integer (value : Int) : Plain (.integer value)
  | text {literal : List Char} (h : PlainText literal) : Plain (.text literal)
  | list {items : List Json} (h : ∀ item ∈ items, Plain item) : Plain (.list items)
  | object {members : List (List Char × Json)} (hkeys : ∀ m ∈ members, PlainText m.1)
      (hvalues : ∀ m ∈ members, Plain m.2) : Plain (.object members)

/-- The value is read off wherever its written form stands, whatever follows it. -/
def ReadsBack (depth : Nat) (j : Json) : Prop :=
  ∀ n cs rest, EndsNumber rest → (render depth j).length ≤ n →
    skipBlanks cs = render depth j ++ rest → readValue (n + 1) cs = some (j, rest)

section Values

variable {depth n : Nat} {cs rest close : List Char}

/-- Line breaks and indentation are skipped. -/
theorem skipBlanks_lineBreak (depth : Nat) (cs : List Char) :
    skipBlanks (lineBreak depth ++ cs) = skipBlanks cs := by
  have hblanks : ∀ c ∈ lineBreak depth, isBlank c = true := by
    intro c hc
    rcases List.mem_cons.1 hc with rfl | hc
    · rfl
    · rw [List.eq_of_mem_replicate hc]
      rfl
  exact List.dropWhile_append_of_pos hblanks

theorem skipBlanks_cons {c : Char} (hc : isBlank c = false) (cs : List Char) :
    skipBlanks (c :: cs) = c :: cs :=
  List.dropWhile_cons_of_neg (by simp [hc])

theorem endsNumber_lineBreak (depth : Nat) (cs : List Char) :
    EndsNumber (lineBreak depth ++ cs) := endsNumber_cons (by decide)

/-- A written integer begins with a digit or a sign. -/
theorem decimal_eq_cons (i : Int) :
    ∃ c cs, decimal i = c :: cs ∧ (c.isDigit = true ∨ c = '-') := by
  unfold decimal
  split
  · exact ⟨_, _, rfl, .inr rfl⟩
  · cases hform : Nat.toDigits 10 i.natAbs with
    | nil => exact absurd hform Nat.toDigits_ne_nil
    | cons c cs =>
        have hmem : c ∈ Nat.toDigits 10 i.natAbs := by
          rw [hform]
          exact List.mem_cons_self
        exact ⟨c, cs, rfl, .inl (Nat.isDigit_of_mem_toDigits (by decide) (by decide) hmem)⟩

/-- What does not begin a text, a list, an object or a word is read as a number. -/
theorem readValue_of_number {c : Char} (hc : c.isDigit = true ∨ c = '-')
    (hcs : skipBlanks cs = c :: rest) : readValue (n + 1) cs = scanNumber (c :: rest) := by
  have hother : ∀ d : Char, d.isDigit = false → d ≠ '-' → c ≠ d := by
    rintro d hdigit hsign rfl
    rw [hdigit] at hc
    exact hc.elim nofun hsign
  rw [readValue, hcs]
  split
  all_goals first
    | rfl
    | rename_i heq
      exact absurd (List.cons.inj heq).1 (hother _ (by decide) (by decide))

/-- A written value begins with a character that is neither a blank nor closes a list. -/
theorem render_eq_cons (depth : Nat) (j : Json) :
    ∃ c cs, render depth j = c :: cs ∧ isBlank c = false ∧ c ≠ ']' := by
  cases j with
  | null => exact ⟨_, _, rfl, by decide, by decide⟩
  | bool value => cases value <;> exact ⟨_, _, rfl, by decide, by decide⟩
  | integer i =>
      obtain ⟨c, cs, hform, hc⟩ := decimal_eq_cons i
      refine ⟨c, cs, hform, ?_, ?_⟩
      · have hblank : ∀ d : Char, isBlank d = true → ¬ (d.isDigit = true ∨ d = '-') := by
          intro d hd
          simp only [isBlank, Bool.or_eq_true, decide_eq_true_eq] at hd
          rcases hd with ((rfl | rfl) | rfl) | rfl <;> decide
        exact Bool.eq_false_iff.2 fun h => hblank c h hc
      · rintro rfl
        exact absurd hc (by decide)
  | fraction => exact ⟨_, _, rfl, by decide, by decide⟩
  | text literal => exact ⟨_, _, rfl, by decide, by decide⟩
  | list items => cases items <;> exact ⟨_, _, rfl, by decide, by decide⟩
  | object members => cases members <;> exact ⟨_, _, rfl, by decide, by decide⟩

theorem skipBlanks_render (depth : Nat) (j : Json) (cs : List Char) :
    skipBlanks (render depth j ++ cs) = render depth j ++ cs := by
  obtain ⟨c, ds, hform, hblank, -⟩ := render_eq_cons depth j
  rw [hform]
  exact skipBlanks_cons hblank _

/-! ### One value -/

theorem readsBack_integer (depth : Nat) (i : Int) : ReadsBack depth (.integer i) := by
  intro n cs rest hrest _ hcs
  obtain ⟨c, ds, hform, hc⟩ := decimal_eq_cons i
  have hscan := scanNumber_decimal i hrest
  rw [hform] at hscan
  rw [render, hform] at hcs
  rw [readValue_of_number hc hcs]
  exact hscan

theorem readsBack_text (depth : Nat) {literal : List Char} (h : PlainText literal) :
    ReadsBack depth (.text literal) := by
  intro n cs rest _ _ hcs
  have hcs' : skipBlanks cs = '"' :: (literal ++ '"' :: rest) := by
    rw [hcs, render, quoted]
    simp
  rw [readValue, hcs']
  simp only [scanText_of_plain h, Option.map_some]

/-! ### Lists and objects -/

/-- The items of a list, if each of them can be read back. -/
theorem readItems_of_readsBack {item : Json} {items : List Json}
    (h : ∀ x ∈ item :: items, ReadsBack depth x) (hends : EndsNumber close)
    (hclose : skipBlanks close = ']' :: rest)
    (hn : (render depth item ++ renderItems depth items).length ≤ n)
    (hcs : skipBlanks cs = render depth item ++ renderItems depth items ++ close) :
    readItems (n + 2) cs = some (item :: items, rest) := by
  induction items generalizing item n cs with
  | nil =>
      simp only [renderItems, List.append_nil] at hn hcs
      have hread := h item List.mem_cons_self n cs close hends (by omega) hcs
      rw [readItems, hread]
      simp only [hclose]
  | cons next items ih =>
      -- After a comma the rest of the list is read in the same way.
      have hform : render depth item ++ renderItems depth (next :: items) ++ close
          = render depth item ++ (',' :: (lineBreak depth
              ++ (render depth next ++ renderItems depth items ++ close))) := by
        simp only [renderItems, List.append_assoc, List.cons_append]
      rw [hform] at hcs
      simp only [renderItems, List.length_append, List.length_cons] at hn
      have hread := h item List.mem_cons_self n cs _ (endsNumber_cons (by decide)) (by omega) hcs
      obtain ⟨n, rfl⟩ : ∃ m, n = m + 1 := ⟨n - 1, by omega⟩
      have hrest : readItems (n + 2) (lineBreak depth ++ (render depth next
          ++ renderItems depth items ++ close)) = some (next :: items, rest) := by
        apply ih fun x hx => h x (List.mem_cons_of_mem _ hx)
        · simp only [List.length_append]
          omega
        · rw [skipBlanks_lineBreak, List.append_assoc, skipBlanks_render]
      rw [readItems, hread]
      simp only [skipBlanks_cons (show isBlank ',' = false by decide), hrest, Option.map_some]

/-- One member: after a comma others are read, after a brace there are none. -/
theorem readMembers_member {key : List Char} {value : Json} (hkey : PlainText key)
    (hvalue : ReadsBack depth value) (hends : EndsNumber close)
    (hn : (render depth value).length ≤ n)
    (hcs : skipBlanks cs = quoted key ++ [':', ' '] ++ render depth value ++ close) :
    (skipBlanks close = ',' :: rest →
      readMembers (n + 2) cs
        = (readMembers (n + 1) rest).map fun (members, r) => ((key, value) :: members, r)) ∧
    (skipBlanks close = '}' :: rest → readMembers (n + 2) cs = some ([(key, value)], rest)) := by
  have hcs' : skipBlanks cs
      = '"' :: (key ++ '"' :: ':' :: ' ' :: (render depth value ++ close)) := by
    rw [hcs, quoted]
    simp only [List.append_assoc, List.cons_append, List.nil_append]
  have hread := hvalue n (' ' :: _) close hends hn (skipBlanks_render depth value close)
  have hcolon := skipBlanks_cons (show isBlank ':' = false by decide)
  constructor
  · intro hcomma
    rw [readMembers, hcs']
    simp only [scanText_of_plain hkey, hcolon, hread, hcomma]
  · intro hbrace
    rw [readMembers, hcs']
    simp only [scanText_of_plain hkey, hcolon, hread, hbrace]

/-- The members of an object, if each of their values can be read back. -/
theorem readMembers_of_readsBack {key : List Char} {value : Json}
    {members : List (List Char × Json)} (hkeys : ∀ m ∈ (key, value) :: members, PlainText m.1)
    (h : ∀ m ∈ (key, value) :: members, ReadsBack depth m.2) (hends : EndsNumber close)
    (hclose : skipBlanks close = '}' :: rest)
    (hn : (quoted key ++ [':', ' '] ++ render depth value
      ++ renderMembers depth members).length ≤ n)
    (hcs : skipBlanks cs = quoted key ++ [':', ' '] ++ render depth value
      ++ renderMembers depth members ++ close) :
    readMembers (n + 2) cs = some ((key, value) :: members, rest) := by
  induction members generalizing key value n cs with
  | nil =>
      simp only [renderMembers, List.append_nil, List.length_append] at hn hcs
      have hkey : PlainText key := hkeys _ List.mem_cons_self
      have hvalue : ReadsBack depth value := h _ List.mem_cons_self
      exact (readMembers_member hkey hvalue hends (by omega) hcs).2 hclose
  | cons next members ih =>
      obtain ⟨key', value'⟩ := next
      have hkey : PlainText key := hkeys _ List.mem_cons_self
      have hvalue : ReadsBack depth value := h _ List.mem_cons_self
      have hcs' : skipBlanks cs = quoted key ++ [':', ' '] ++ render depth value ++ (','
          :: (lineBreak depth ++ (quoted key' ++ [':', ' '] ++ render depth value'
            ++ renderMembers depth members ++ close))) := by
        rw [hcs, renderMembers]
        simp only [List.append_assoc, List.cons_append]
      simp only [renderMembers, List.length_append, List.length_cons] at hn
      have hmember := (readMembers_member (n := n) hkey hvalue (endsNumber_cons (by decide))
        (by omega) hcs').1 (skipBlanks_cons (by decide) _)
      obtain ⟨n, rfl⟩ : ∃ m, n = m + 1 := ⟨n - 1, by omega⟩
      have hrest : readMembers (n + 2) (lineBreak depth ++ (quoted key' ++ [':', ' ']
          ++ render depth value' ++ renderMembers depth members ++ close))
            = some ((key', value') :: members, rest) := by
        apply ih (fun m hm => hkeys m (List.mem_cons_of_mem _ hm))
          (fun m hm => h m (List.mem_cons_of_mem _ hm))
        · simp only [List.length_append, List.length_cons]
          omega
        · rw [skipBlanks_lineBreak]
          exact skipBlanks_cons (by decide) _
      rw [hmember, hrest, Option.map_some]

theorem readsBack_list {items : List Json} (h : ∀ item ∈ items, ∀ depth, ReadsBack depth item)
    (depth : Nat) : ReadsBack depth (.list items) := by
  intro n cs rest _ hn hcs
  cases items with
  | nil =>
      rw [readValue, hcs]
      rfl
  | cons item items =>
      simp only [render, List.length_append, List.length_cons] at hn
      obtain ⟨n, rfl⟩ : ∃ m, n = m + 2 := ⟨n - 2, by omega⟩
      -- The closing bracket stands on a line of its own.
      have hitems : readItems (n + 2) (render (depth + 1) item ++ (renderItems (depth + 1) items
          ++ (lineBreak depth ++ ']' :: rest))) = some (item :: items, rest) := by
        apply readItems_of_readsBack (fun x hx => h x hx (depth + 1)) (endsNumber_lineBreak depth _)
        · rw [skipBlanks_lineBreak]
          exact skipBlanks_cons (by decide) rest
        · simp only [List.length_append]
          omega
        · rw [skipBlanks_render, List.append_assoc]
      have hcs' : skipBlanks cs = '[' :: (lineBreak (depth + 1) ++ (render (depth + 1) item
          ++ (renderItems (depth + 1) items ++ (lineBreak depth ++ ']' :: rest)))) := by
        rw [hcs, render]
        simp only [List.append_assoc, List.cons_append, List.nil_append]
      obtain ⟨c, tail, hform, -, hopen⟩ := render_eq_cons (depth + 1) item
      rw [readValue, hcs']
      simp only [skipBlanks_lineBreak, skipBlanks_render]
      split
      · -- An item does not begin with the closing bracket.
        rename_i hclosed
        rw [hform] at hclosed
        exact absurd (List.cons.inj hclosed).1 hopen
      · rw [hitems]
        rfl

theorem readsBack_object {members : List (List Char × Json)}
    (hkeys : ∀ m ∈ members, PlainText m.1) (h : ∀ m ∈ members, ∀ depth, ReadsBack depth m.2)
    (depth : Nat) : ReadsBack depth (.object members) := by
  intro n cs rest _ hn hcs
  cases members with
  | nil =>
      rw [readValue, hcs]
      rfl
  | cons member members =>
      obtain ⟨key, value⟩ := member
      have hfirst : ∀ tail, skipBlanks (quoted key ++ tail) = quoted key ++ tail :=
        fun tail => skipBlanks_cons (by decide) _
      simp only [render, List.length_append, List.length_cons] at hn
      obtain ⟨n, rfl⟩ : ∃ m, n = m + 2 := ⟨n - 2, by omega⟩
      have hmembers : readMembers (n + 2) (quoted key ++ ([':', ' '] ++ (render (depth + 1) value
          ++ (renderMembers (depth + 1) members ++ (lineBreak depth ++ '}' :: rest)))))
            = some ((key, value) :: members, rest) := by
        apply readMembers_of_readsBack hkeys (fun m hm => h m hm (depth + 1))
          (endsNumber_lineBreak depth _)
        · rw [skipBlanks_lineBreak]
          exact skipBlanks_cons (by decide) rest
        · simp only [List.length_append, List.length_cons]
          omega
        · rw [hfirst]
          simp only [List.append_assoc]
      have hcs' : skipBlanks cs = '{' :: (lineBreak (depth + 1) ++ (quoted key ++ ([':', ' ']
          ++ (render (depth + 1) value ++ (renderMembers (depth + 1) members
            ++ (lineBreak depth ++ '}' :: rest)))))) := by
        rw [hcs, render]
        simp only [List.append_assoc, List.cons_append, List.nil_append]
      rw [readValue, hcs']
      simp only [skipBlanks_lineBreak, hfirst]
      split
      · -- A key begins with a quote.
        rename_i hclosed
        exact absurd (List.cons.inj hclosed).1 (by decide)
      · rw [hmembers]
        rfl

/-! ### Every value -/

/-- A plain value can be read back at any depth. -/
theorem Plain.readsBack {j : Json} (h : j.Plain) (depth : Nat) : ReadsBack depth j := by
  induction h generalizing depth with
  | null =>
      intro n cs rest _ _ hcs
      rw [readValue, hcs]
      rfl
  | bool value =>
      intro n cs rest _ _ hcs
      rw [readValue, hcs]
      cases value <;> rfl
  | integer i => exact readsBack_integer depth i
  | text h => exact readsBack_text depth h
  | list _ ih => exact readsBack_list ih depth
  | object hkeys _ ih => exact readsBack_object hkeys ih depth

end Values

/-- Reading a written document yields the value that was written. -/
theorem parse_pretty {j : Json} (h : j.Plain) : parse j.pretty = some j := by
  have hread := h.readsBack 0 j.pretty.length j.pretty [] endsNumber_nil
    (Nat.le_refl _) (by
      rw [List.append_nil, pretty, ← List.append_nil (render 0 j)]
      exact skipBlanks_render 0 j [])
  rw [parse, hread]
  rfl

end Json
end SiteDispatch
