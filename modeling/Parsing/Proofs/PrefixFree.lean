/-
Parsing.Proofs.PrefixFree — what can be read off the front of a text.

Where several things are written one after the other, with no lengths
before them, the text gives them back only if each can be told from what
follows it.  That is `PrefixFree`: it is kept by lists that are closed by a
character no item starts with, and by lists with separators.

`prefixFree_quoted` is the case of quoted texts.  It rests on the escapes of
single characters, of which there are three kinds (`EscapeStyle.Writes`) that
the first two characters tell apart.  A code ends with a brace, and so its
length need not be known.
-/
import Mathlib
import Parsing.Inspect

namespace Parsing.Text

/-! ## Codes -/

section Codes

variable {α β : Type} {code : α → List Char}

/-- What the code writes can be told from what follows it. -/
def PrefixFree (code : α → List Char) : Prop :=
  ∀ ⦃a b : α⦄ ⦃x y : List Char⦄, code a ++ x = code b ++ y → a = b ∧ x = y

theorem PrefixFree.comp (h : PrefixFree code) {f : β → α} (hf : Function.Injective f) :
    PrefixFree fun b => code (f b) := by
  intro a b x y heq
  obtain ⟨hab, hxy⟩ := h heq
  exact ⟨hf hab, hxy⟩

/-- What stands in front of every word changes nothing. -/
theorem PrefixFree.cons (h : PrefixFree code) (chars : List Char) :
    PrefixFree fun a => chars ++ code a := by
  intro a b x y heq
  simp only [List.append_assoc, List.append_cancel_left_eq] at heq
  exact h heq

/-- A character that occurs in no word can close them. -/
theorem prefixFree_of_notMem (hinj : Function.Injective code) {close : Char}
    (hclose : ∀ a, close ∉ code a) : PrefixFree fun a => code a ++ [close] := by
  intro a b x y heq
  have htake : ∀ a x, (code a ++ [close] ++ x).takeWhile (· != close) = code a := by
    intro a x
    have hall : ∀ c ∈ code a, (c != close) = true := by
      intro c hc
      simpa using fun h : c = close => hclose a (h ▸ hc)
    rw [List.append_assoc, List.takeWhile_append_of_pos hall]
    simp
  have hab : a = b := hinj (by rw [← htake a x, heq, htake b y])
  subst hab
  exact ⟨rfl, List.append_cancel_left heq⟩

/-- A list of words can be closed by a character with which none of them
starts. -/
theorem PrefixFree.list (h : PrefixFree code) {close : Char}
    (hclose : ∀ a x y, code a ++ x ≠ close :: y) :
    PrefixFree fun as : List α => as.flatMap code ++ [close] := by
  intro as bs x y heq
  induction as generalizing bs with
  | nil =>
    cases bs with
    | nil => simpa using heq
    | cons b bs =>
      simp only [List.flatMap_nil, List.nil_append, List.flatMap_cons, List.append_assoc,
        List.singleton_append] at heq
      exact absurd heq.symm (hclose b _ _)
  | cons a as ih =>
    cases bs with
    | nil =>
      simp only [List.flatMap_nil, List.nil_append, List.flatMap_cons, List.append_assoc,
        List.singleton_append] at heq
      exact absurd heq (hclose a _ _)
    | cons b bs =>
      simp only [List.flatMap_cons, List.append_assoc] at heq
      obtain ⟨rfl, hrest⟩ := h heq
      obtain ⟨rfl, hxy⟩ := ih (by simpa only [List.append_assoc] using hrest)
      exact ⟨rfl, hxy⟩

theorem intercalate_cons_map (sep : List Char) (a : α) (as : List α) :
    sep.intercalate ((a :: as).map code) = code a ++ as.flatMap fun b => sep ++ code b := by
  induction as generalizing a with
  | nil => simp
  | cons b as ih =>
    rw [List.map_cons, List.map_cons, List.intercalate_cons_cons, ← List.map_cons, ih]
    simp

/-- So can a list of words with separators, if they do not start with that
character either. -/
theorem PrefixFree.intercalate (h : PrefixFree code) {sep : List Char} {close : Char}
    (hclose : ∀ a x y, code a ++ x ≠ close :: y) (hsep : ∀ x y, sep ++ x ≠ close :: y) :
    PrefixFree fun as : List α => sep.intercalate (as.map code) ++ [close] := by
  have hrest : PrefixFree fun as : List α => (as.flatMap fun a => sep ++ code a) ++ [close] :=
    (h.cons sep).list fun a x y => by
      simpa only [List.append_assoc] using hsep (code a ++ x) y
  intro as bs x y heq
  cases as with
  | nil =>
    cases bs with
    | nil => simpa using heq
    | cons b bs =>
      simp only [intercalate_cons_map, List.map_nil, List.intercalate_nil, List.nil_append,
        List.append_assoc, List.singleton_append] at heq
      exact absurd heq.symm (hclose b _ _)
  | cons a as =>
    cases bs with
    | nil =>
      simp only [intercalate_cons_map, List.map_nil, List.intercalate_nil, List.nil_append,
        List.append_assoc, List.singleton_append] at heq
      exact absurd heq (hclose a _ _)
    | cons b bs =>
      simp only [intercalate_cons_map, List.append_assoc] at heq
      obtain ⟨rfl, htail⟩ := h heq
      obtain ⟨rfl, hxy⟩ := hrest (by simpa only [List.append_assoc] using htail)
      exact ⟨rfl, hxy⟩

end Codes

/-! ## Numbers -/

/-- The digits of a number are characters of digits. -/
theorem exists_of_mem_toDigits {b n : Nat} {c : Char} (hb : 1 < b)
    (h : c ∈ Nat.toDigits b n) : ∃ d, Nat.digitChar d = c := by
  induction n using Nat.strong_induction_on with
  | _ n ih =>
    rw [Nat.toDigits_eq_if hb] at h
    split at h
    · exact ⟨n, (List.mem_singleton.1 h).symm⟩
    · rename_i hge
      rcases List.mem_append.1 h with hfront | hlast
      · exact ih (n / b) (Nat.div_lt_self (by omega) hb) hfront
      · exact ⟨n % b, (List.mem_singleton.1 hlast).symm⟩

theorem digitChar_inj {m n : Nat} (hm : m < 16) (hn : n < 16)
    (h : Nat.digitChar m = Nat.digitChar n) : m = n := by
  have hall : ∀ m < 16, ∀ n < 16, Nat.digitChar m = Nat.digitChar n → m = n := by decide
  exact hall m hm n hn h

/-- By induction on the number: the last digit is the remainder, and those
before it are the digits of the quotient. -/
theorem toDigits_injective {b : Nat} (hb : 1 < b) (hle : b ≤ 16) :
    Function.Injective (Nat.toDigits b) := by
  intro m n h
  induction m using Nat.strong_induction_on generalizing n with
  | _ m ih =>
    have hmod : ∀ k, k % b < 16 := fun k => lt_of_lt_of_le (Nat.mod_lt k (by omega)) hle
    rw [Nat.toDigits_eq_if hb, Nat.toDigits_eq_if (n := n) hb] at h
    split at h <;> split at h
    · exact digitChar_inj (by omega) (by omega) (by simpa using h)
    · rename_i hm hn
      have hlength := congrArg List.length h
      have hpos : 0 < (Nat.toDigits b (n / b)).length := Nat.length_toDigits_pos
      simp only [List.length_append, List.length_singleton] at hlength
      omega
    · rename_i hm hn
      have hlength := congrArg List.length h
      have hpos : 0 < (Nat.toDigits b (m / b)).length := Nat.length_toDigits_pos
      simp only [List.length_append, List.length_singleton] at hlength
      omega
    · rename_i hm hn
      obtain ⟨hfront, hlast⟩ := List.append_inj' h rfl
      have hquot := ih (m / b) (Nat.div_lt_self (by omega) hb) hfront
      have hrem := digitChar_inj (hmod m) (hmod n) (by simpa using hlast)
      rw [← Nat.div_add_mod m b, ← Nat.div_add_mod n b, hquot, hrem]

/-- A number can be closed by a character that is no digit. -/
theorem prefixFree_toDigits {b : Nat} (hb : 1 < b) (hle : b ≤ 16) {close : Char}
    (hclose : ∀ d, Nat.digitChar d ≠ close) :
    PrefixFree fun n => Nat.toDigits b n ++ [close] := by
  refine prefixFree_of_notMem (toDigits_injective hb hle) fun n hmem => ?_
  obtain ⟨d, hd⟩ := exists_of_mem_toDigits hb hmem
  exact hclose d hd

/-! ## Escapes -/

/-- A way to write the characters of a text between quotes.  A character has
an escape of its own, behind a backslash by another character; or it is
written behind a backslash and `u` by its code; or it stands for itself. -/
structure EscapeStyle where
  /-- The characters with an escape of their own, and the second character
  of it. -/
  short : List (Char × Char)
  /-- The characters that are written by their codes. -/
  coded : Char → Prop
  /-- The code of a character. -/
  code : Char → List Char
  short_inj : ∀ p ∈ short, ∀ q ∈ short, p.2 = q.2 → p.1 = q.1
  short_ne_u : ∀ p ∈ short, p.2 ≠ 'u'
  backslash_mem : '\\' ∈ short.map Prod.fst
  quote_mem : '"' ∈ short.map Prod.fst
  code_inj : ∀ ⦃c c' : Char⦄ ⦃x y : List Char⦄, coded c → coded c' →
    code c ++ x = code c' ++ y → c = c' ∧ x = y

/-- The three ways in which a character is written. -/
inductive EscapeStyle.Writes (style : EscapeStyle) (c : Char) : List Char → Prop where
  | short {d : Char} (h : (c, d) ∈ style.short) : style.Writes c ['\\', d]
  | code (h : style.coded c) : style.Writes c ('\\' :: 'u' :: style.code c)
  | self (h : c ∉ style.short.map Prod.fst) : style.Writes c [c]

section Escapes

variable {style : EscapeStyle} {write : Char → List Char}

/-- The first two characters tell the three ways apart. -/
theorem EscapeStyle.prefixFree (hwrite : ∀ c, style.Writes c (write c)) :
    PrefixFree write := by
  intro c c' x y heq
  have h := hwrite c
  have h' := hwrite c'
  generalize write c = w at h heq
  generalize write c' = w' at h' heq
  cases h with
  | @short d hd =>
    cases h' with
    | @short d' hd' =>
      obtain ⟨rfl, hxy⟩ : d = d' ∧ x = y := by simpa using heq
      exact ⟨style.short_inj _ hd _ hd' rfl, hxy⟩
    | code =>
      have hu : d = 'u' := by simp at heq; exact heq.1
      exact absurd hu (style.short_ne_u _ hd)
    | self hc' =>
      obtain rfl : '\\' = c' := by simp at heq; exact heq.1
      exact absurd style.backslash_mem hc'
  | code hc =>
    cases h' with
    | @short d' hd' =>
      have hu : 'u' = d' := by simp at heq; exact heq.1
      exact absurd hu.symm (style.short_ne_u _ hd')
    | code hc' =>
      simp only [List.cons_append, List.cons.injEq, true_and] at heq
      exact style.code_inj hc hc' heq
    | self hc' =>
      obtain rfl : '\\' = c' := by simp at heq; exact heq.1
      exact absurd style.backslash_mem hc'
  | self hc =>
    cases h' with
    | short =>
      obtain rfl : c = '\\' := by simp at heq; exact heq.1
      exact absurd style.backslash_mem hc
    | code =>
      obtain rfl : c = '\\' := by simp at heq; exact heq.1
      exact absurd style.backslash_mem hc
    | self => simpa using heq

/-- What a character is written as does not start with a quote. -/
theorem EscapeStyle.Writes.append_ne {c : Char} {w : List Char} (h : style.Writes c w)
    (x y : List Char) : w ++ x ≠ '"' :: y := by
  cases h with
  | short => simp
  | code => simp
  | self hc =>
    have hquote : c ≠ '"' := fun h => hc (h ▸ style.quote_mem)
    simp [hquote]

/-- A text between quotes can be told from what follows it. -/
theorem EscapeStyle.prefixFree_text (hwrite : ∀ c, style.Writes c (write c)) :
    PrefixFree fun text : String => ['"'] ++ (text.toList.flatMap write ++ ['"']) := by
  have hchars := ((EscapeStyle.prefixFree hwrite).list fun c => (hwrite c).append_ne).cons ['"']
  exact hchars.comp fun _ _ => String.toList_inj.1

end Escapes

/-! ## Quoted texts -/

/-- The characters with a short escape, and the second character of it. -/
def shortEscapes : List (Char × Char) :=
  [('"', '"'), ('\\', '\\'), ('\t', 't'), ('\r', 'r'), ('\n', 'n'), ('\x00', '0')]

/-- The code of a character stands between braces. -/
theorem prefixFree_bracedCode :
    PrefixFree fun c : Char => '\x7b' :: (Nat.toDigits 16 c.toNat ++ ['\x7d']) := by
  have hdigits : PrefixFree fun n => Nat.toDigits 16 n ++ ['\x7d'] :=
    prefixFree_toDigits (by decide) (by decide) fun d => Nat.digitChar_ne '\x7d' (by decide)
  exact (hdigits.comp (f := Char.toNat) fun _ _ => Char.toNat_inj.1).cons ['\x7b']

/-- The escapes of quoted texts. -/
def quotedStyle : EscapeStyle where
  short := shortEscapes
  coded _ := True
  code c := '\x7b' :: (Nat.toDigits 16 c.toNat ++ ['\x7d'])
  short_inj := by decide
  short_ne_u := by decide
  backslash_mem := by decide
  quote_mem := by decide
  code_inj _ _ _ _ _ _ h := prefixFree_bracedCode h

theorem quotedChar_writes (c : Char) : quotedStyle.Writes c (quotedChar c) := by
  unfold quotedChar
  split
  · exact .short (d := '"') (by decide)
  · exact .short (d := '\\') (by decide)
  · exact .short (d := 't') (by decide)
  · exact .short (d := 'r') (by decide)
  · exact .short (d := 'n') (by decide)
  · exact .short (d := '0') (by decide)
  · split
    · exact .code trivial
    · refine .self ?_
      simp only [quotedStyle, shortEscapes, List.map_cons, List.map_nil, List.mem_cons,
        List.not_mem_nil, or_false, not_or]
      exact ⟨‹_›, ‹_›, ‹_›, ‹_›, ‹_›, ‹_›⟩

theorem toList_quoted (text : String) :
    (quoted text).toList = ['"'] ++ (text.toList.flatMap quotedChar ++ ['"']) := by
  simp [quoted]

/-- A quoted text can be told from what follows it. -/
theorem prefixFree_quoted : PrefixFree fun text => (quoted text).toList := by
  simp only [toList_quoted]
  exact EscapeStyle.prefixFree_text quotedChar_writes

theorem toList_inspect_list {α : Type} [Inspect α] (items : List α) :
    (inspect items).toList =
      ['['] ++ ([',', ' '].intercalate (items.map fun item => (inspect item).toList) ++ [']']) := by
  simp [inspect, Inspect.bracketed, String.toList_intercalate, Function.comp_def]

/-- So can a list of texts. -/
theorem prefixFree_inspect_texts :
    PrefixFree fun texts : List String => (inspect texts).toList := by
  simp only [toList_inspect_list]
  refine (PrefixFree.intercalate prefixFree_quoted (fun text x y => ?_) fun x y => ?_).cons ['[']
  · simp [toList_quoted]
  · simp

end Parsing.Text
