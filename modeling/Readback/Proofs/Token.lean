import Readback.Term.Pretty
import Mathlib.Data.List.Basic

/-!
# Tokens of printed terms

Printed terms are made of tokens with delimiters between them. A token goes on up to the next
delimiter, so that it can be told from what follows it. Names are tokens if they are words, and so
are the texts of numbers; behind a token there may be levels in braces, which end with the brace.

## Main definitions

* `isWord` — texts that may stand as names
* `IsToken`, `IsLevels`, `IsLeafText` — tokens, levels in braces, and tokens with levels
* `leadingToken` — what stands before the first delimiter

## Main statements

* `IsLeafText.append_inj` — the text of a leaf is told from what follows it
* `isToken_of_isWord`, `isToken_int`, `isToken_float` — words and numbers are tokens
* `Levels.isLevels_render` — what is printed of levels
-/

namespace Readback

/-- The words of the notation. -/
def keywords : List String := ["forall", "fun", "let", "in"]

/-- Whether a character may stand in a word: letters, digits, underscores, dots and primes. Beyond
ASCII every character counts as a letter. -/
def isWordChar (c : Char) : Bool :=
  c.isAlphanum || c = '_' || c = '.' || c = '\'' || 127 < c.toNat

/-- Whether a text may stand as a name. -/
def isWord (text : String) : Bool :=
  text ≠ "" && text.toList.all isWordChar && text ∉ keywords

/-- The characters that end a token. -/
def delimiters : List Char := [' ', ',', ':', '=', '(', ')', '{', '}', '@']

/-- Whether a character ends a token. -/
def isDelimiter (c : Char) : Bool := c ∈ delimiters

/-- The characters that may follow a term. -/
def followers : List Char := [' ', ',', ')']

/-- A text without delimiters that is no word of the notation. -/
structure IsToken (cs : List Char) : Prop where
  nonempty : cs ≠ []
  solid : ∀ c ∈ cs, isDelimiter c = false
  notKeyword : ∀ k ∈ keywords, cs ≠ k.toList

/-- What may stand behind the name of a leaf: nothing, or levels in braces. -/
inductive IsLevels : List Char → Prop
  | none : IsLevels []
  | braced {levels : List Char} (inside : '}' ∉ levels) :
    IsLevels ('@' :: '{' :: (levels ++ ['}']))

/-- The text of a leaf: a token, which may have levels behind it. -/
def IsLeafText (text : List Char) : Prop :=
  ∃ token levels, IsToken token ∧ IsLevels levels ∧ text = token ++ levels

/-- What stands before the first delimiter. -/
def leadingToken (cs : List Char) : List Char := cs.takeWhile (! isDelimiter ·)

/-! ## Where tokens end -/

/-- The text does not start with a character of a kind. -/
def EndsBefore (p : Char → Bool) (rest : List Char) : Prop := ∀ c cs, rest = c :: cs → p c = false

/-- The text does not go on with a token in front of it. -/
def Breaks (rest : List Char) : Prop := EndsBefore (! isDelimiter ·) rest

/-- The text goes on neither with a token in front of it nor with its levels. -/
def Stops (rest : List Char) : Prop := EndsBefore (· ∉ followers) rest

theorem stops_nil : Stops [] := by
  rintro c cs ⟨⟩

theorem stops_cons {c : Char} (stop : c ∈ followers) (cs : List Char) : Stops (c :: cs) := by
  rintro _ _ ⟨⟩
  simpa using stop

theorem Stops.breaks {rest : List Char} (stops : Stops rest) : Breaks rest := by
  rintro c cs rfl
  have delimiting : ∀ d ∈ followers, (! isDelimiter d) = false := by
    simp [followers, isDelimiter, delimiters]
  exact delimiting c (by simpa using stops c cs rfl)

theorem breaks_cons {c : Char} (delimiter : isDelimiter c) (cs : List Char) : Breaks (c :: cs) := by
  rintro _ _ ⟨⟩
  simpa using delimiter

section Kind

variable {p : Char → Bool} {a b r s : List Char}

theorem takeWhile_append_of_endsBefore (each : ∀ c ∈ a, p c) (ends : EndsBefore p r) :
    (a ++ r).takeWhile p = a := by
  rw [List.takeWhile_append_of_pos each]
  cases r with
  | nil => simp
  | cons c cs => simp [ends c cs rfl]

/-- Texts of characters of one kind are told from what follows them. -/
theorem append_inj_of_endsBefore (each : ∀ c ∈ a, p c) (each' : ∀ c ∈ b, p c)
    (ends : EndsBefore p r) (ends' : EndsBefore p s) (same : a ++ r = b ++ s) : a = b ∧ r = s := by
  have first : a = b := by
    rw [← takeWhile_append_of_endsBefore each ends, same,
      takeWhile_append_of_endsBefore each' ends']
  exact ⟨first, by rwa [first, List.append_cancel_left_eq] at same⟩

end Kind

section Token

variable {token token' r s : List Char}

theorem IsToken.each (isToken : IsToken token) : ∀ c ∈ token, (! isDelimiter c) = true := by
  simpa using isToken.solid

/-- A token is told from what follows it. -/
theorem IsToken.append_inj (isToken : IsToken token) (isToken' : IsToken token') (breaks : Breaks r)
    (breaks' : Breaks s) (same : token ++ r = token' ++ s) : token = token' ∧ r = s :=
  append_inj_of_endsBefore isToken.each isToken'.each breaks breaks' same

theorem IsToken.leadingToken_append (isToken : IsToken token) (breaks : Breaks r) :
    leadingToken (token ++ r) = token :=
  takeWhile_append_of_endsBefore isToken.each breaks

theorem IsLevels.breaks {levels : List Char} (isLevels : IsLevels levels) (stops : Stops r) :
    Breaks (levels ++ r) := by
  cases isLevels with
  | none => exact stops.breaks
  | braced => exact breaks_cons rfl _

/-- Levels are told from what follows them. -/
theorem IsLevels.append_inj {levels levels' : List Char} (isLevels : IsLevels levels)
    (isLevels' : IsLevels levels') (stops : Stops r) (stops' : Stops s)
    (same : levels ++ r = levels' ++ s) : levels = levels' ∧ r = s := by
  cases isLevels with
  | none =>
    cases isLevels' with
    | none => exact ⟨rfl, same⟩
    | braced => exact absurd (stops _ _ same) (by decide)
  | @braced inner inside =>
    cases isLevels' with
    | none => exact absurd (stops' _ _ same.symm) (by decide)
    | @braced inner' inside' =>
      have other : ∀ {inner : List Char}, '}' ∉ inner → ∀ c ∈ inner, decide (c ≠ '}') = true := by
        rintro inner inside c member
        exact decide_eq_true (fun brace => inside (brace ▸ member))
      have brace : ∀ r : List Char, EndsBefore (· ≠ '}') ('}' :: r) := by
        rintro r _ _ ⟨⟩
        rfl
      have bodies : inner ++ '}' :: r = inner' ++ '}' :: s := by simpa using same
      obtain ⟨rfl, rest⟩ :=
        append_inj_of_endsBefore (other inside) (other inside') (brace r) (brace s) bodies
      exact ⟨rfl, (List.cons.inj rest).2⟩

/-- The text of a leaf is told from what follows it. -/
theorem IsLeafText.append_inj {a b : List Char} (leaf : IsLeafText a) (leaf' : IsLeafText b)
    (stops : Stops r) (stops' : Stops s) (same : a ++ r = b ++ s) : a = b ∧ r = s := by
  obtain ⟨token, levels, isToken, isLevels, rfl⟩ := leaf
  obtain ⟨token', levels', isToken', isLevels', rfl⟩ := leaf'
  rw [List.append_assoc, List.append_assoc] at same
  obtain ⟨rfl, behind⟩ :=
    isToken.append_inj isToken' (isLevels.breaks stops) (isLevels'.breaks stops') same
  obtain ⟨rfl, rest⟩ := isLevels.append_inj isLevels' stops stops' behind
  exact ⟨rfl, rest⟩

end Token

/-! ## Texts that are tokens -/

theorem isDelimiter_of_isWordChar {c : Char} (word : isWordChar c) : isDelimiter c = false := by
  by_contra delimiter
  have listed : c ∈ delimiters := by simpa [isDelimiter] using delimiter
  have none : ∀ d ∈ delimiters, isWordChar d = false := by simp [delimiters, isWordChar]
  rw [none c listed] at word
  cases word

theorem isWordChar_of_isWord {text : String} {c : Char} (word : isWord text)
    (member : c ∈ text.toList) : isWordChar c := by
  simp only [isWord, Bool.and_eq_true, List.all_eq_true] at word
  exact word.1.2 c member

theorem isToken_of_isWord {text : String} (word : isWord text) : IsToken text.toList := by
  have solid : ∀ c ∈ text.toList, isDelimiter c = false :=
    fun c member => isDelimiter_of_isWordChar (isWordChar_of_isWord word member)
  simp only [isWord, Bool.and_eq_true, decide_eq_true_eq] at word
  obtain ⟨⟨nonempty, -⟩, notKeyword⟩ := word
  refine ⟨fun empty => nonempty (String.toList_eq_nil_iff.mp empty), solid, ?_⟩
  rintro k listed same
  exact notKeyword (String.toList_inj.mp same ▸ listed)

/-- Whether a character may stand in the text of a number. -/
def isNumberChar (c : Char) : Bool := c.isDigit || c = '-' || c = '.' || c = 'e'

theorem isDelimiter_of_isNumberChar {c : Char} (number : isNumberChar c) :
    isDelimiter c = false := by
  by_contra delimiter
  have listed : c ∈ delimiters := by simpa [isDelimiter] using delimiter
  have none : ∀ d ∈ delimiters, isNumberChar d = false := by
    simp [delimiters, isNumberChar]
  rw [none c listed] at number
  cases number

/-- A number is no word of the notation, since each of these has a letter other than `e`. -/
theorem isToken_of_isNumberChar {text : List Char} (nonempty : text ≠ [])
    (each : ∀ c ∈ text, isNumberChar c) : IsToken text := by
  refine ⟨nonempty, fun c member => isDelimiter_of_isNumberChar (each c member), ?_⟩
  rintro k listed rfl
  have letters : ∀ k ∈ keywords, ¬ k.toList.all isNumberChar := by decide
  exact letters k listed (List.all_eq_true.mpr each)

theorem isNumberChar_of_mem_toDigits {c : Char} {n : Nat} (member : c ∈ Nat.toDigits 10 n) :
    isNumberChar c := by
  simp [isNumberChar, Nat.isDigit_of_mem_toDigits (by decide) (by decide) member]

theorem isNumberChar_of_mem_toString {c : Char} {n : Int} (member : c ∈ (toString n).toList) :
    isNumberChar c := by
  cases n with
  | ofNat n => exact isNumberChar_of_mem_toDigits (Nat.toList_repr ▸ member)
  | negSucc n =>
    have sign : (toString (Int.negSucc n)).toList = '-' :: Nat.toDigits 10 (n + 1) := by
      rw [← Nat.toList_repr]
      exact String.toList_append
    rcases List.mem_cons.mp (sign ▸ member) with rfl | digit
    · rfl
    · exact isNumberChar_of_mem_toDigits digit

theorem isToken_int (n : Int) : IsToken (toString n).toList := by
  refine isToken_of_isNumberChar ?_ fun c => isNumberChar_of_mem_toString
  cases n with
  | ofNat n =>
    change (Nat.repr n).toList ≠ []
    simp
  | negSucc n =>
    change ("-" ++ Nat.repr (n + 1)).toList ≠ []
    simp

/-! ### Floats -/

namespace Rounding

theorem isNumberChar_decimalOf {d : Nat} {k : Int} {c : Char}
    (member : c ∈ (decimalOf d k).digits) : isNumberChar c := by
  have kept := List.dropWhile_subset _ (List.mem_reverse.mp member)
  exact isNumberChar_of_mem_toDigits (List.mem_reverse.mp kept)

theorem isNumberChar_search (r : Rounding) {digits more : Nat} {c : Char}
    (member : c ∈ (r.search digits more).digits) : isNumberChar c := by
  induction more generalizing digits with
  | zero => exact isNumberChar_decimalOf member
  | succ more ih =>
    simp only [search] at member
    split at member
    · exact isNumberChar_decimalOf member
    · exact ih member

end Rounding

namespace Float64

section Decimal

variable {d : Decimal} {c : Char} (each : ∀ c ∈ d.digits, isNumberChar c)
include each

theorem isNumberChar_renderPositional (member : c ∈ renderPositional d) : isNumberChar c := by
  have zero : ∀ {n : Nat}, c ∈ List.replicate n '0' → isNumberChar c := fun zeros => by
    rw [List.eq_of_mem_replicate zeros]
    rfl
  unfold renderPositional at member
  split at member
  · rw [List.mem_append, List.mem_append] at member
    obtain (point | zeros) | digit := member
    · have started : ∀ c ∈ ['0', '.'], isNumberChar c := by simp [isNumberChar]
      exact started c point
    · exact zero zeros
    · exact each c digit
  · simp only [List.mem_append, List.mem_singleton] at member
    obtain ((digit | zeros) | rfl) | fractional := member
    · exact each c (List.mem_of_mem_take digit)
    · exact zero zeros
    · rfl
    · split at fractional
      · rw [List.mem_singleton.mp fractional]
        rfl
      · exact each c (List.mem_of_mem_drop fractional)

theorem isNumberChar_renderScientific (member : c ∈ renderScientific d) : isNumberChar c := by
  rw [renderScientific, List.mem_append, List.mem_append, List.mem_cons] at member
  obtain (digit | fractional) | rfl | exponent := member
  · exact each c (List.mem_of_mem_take digit)
  · split at fractional
    · cases fractional
    · obtain rfl | digit := List.mem_cons.mp fractional
      · rfl
      · exact each c (List.mem_of_mem_drop digit)
  · rfl
  · exact isNumberChar_of_mem_toString exponent

end Decimal

theorem isNumberChar_renderMagnitude {x : Float64} {c : Char} (member : c ∈ x.renderMagnitude) :
    isNumberChar c := by
  have each : ∀ c ∈ x.rounding.shortest.digits, isNumberChar c :=
    fun _ digit => x.rounding.isNumberChar_search digit
  simp only [renderMagnitude] at member
  split at member
  · have zero : ∀ c ∈ ['0', '.', '0'], isNumberChar c := by simp [isNumberChar]
    exact zero c member
  · split at member
    · exact isNumberChar_renderPositional each member
    · exact isNumberChar_renderScientific each member

theorem renderMagnitude_ne_nil (x : Float64) : x.renderMagnitude ≠ [] := by
  simp only [renderMagnitude, renderPositional, renderScientific]
  split_ifs <;> simp

end Float64

theorem isToken_float (x : Float64) : IsToken x.render.toList := by
  unfold Float64.render
  split
  · exact isToken_of_isWord (by decide)
  · rw [String.toList_ofList]
    by_cases infinite : x.biasedExponent = 0x7ff
    · rw [if_pos infinite]
      split <;> exact ⟨by decide, by simp [isDelimiter, delimiters], by decide⟩
    · rw [if_neg infinite]
      refine isToken_of_isNumberChar (by simp [x.renderMagnitude_ne_nil]) fun c member => ?_
      obtain sign | magnitude := List.mem_append.mp member
      · have minus : c = '-' := by
          split at sign
          · exact List.mem_singleton.mp sign
          · cases sign
        rw [minus]
        rfl
      · exact Float64.isNumberChar_renderMagnitude magnitude

/-! ## Texts of leaves -/

theorem IsToken.isLeafText {token : List Char} (isToken : IsToken token) : IsLeafText token :=
  ⟨token, [], isToken, .none, (List.append_nil token).symm⟩

/-- A number behind a `#` may stand behind a name or alone. -/
theorem isToken_numbered {stem : List Char} (each : ∀ c ∈ stem, isWordChar c) (index : Nat) :
    IsToken (stem ++ '#' :: Nat.toDigits 10 index) := by
  refine ⟨by simp, fun c member => ?_, fun k listed same => ?_⟩
  · obtain name | member := List.mem_append.mp member
    · exact isDelimiter_of_isWordChar (each c name)
    · obtain rfl | digit := List.mem_cons.mp member
      · rfl
      · exact isDelimiter_of_isNumberChar (isNumberChar_of_mem_toDigits digit)
  · have none : ∀ k ∈ keywords, '#' ∉ k.toList := by decide
    exact none k listed (same ▸ by simp)

theorem isLevels_braced {inner : List Char} (each : ∀ c ∈ inner, isWordChar c ∨ c = ' ') :
    IsLevels ('@' :: '{' :: (inner ++ ['}'])) := by
  refine .braced fun brace => ?_
  obtain word | blank := each '}' brace
  · exact absurd word (by decide)
  · exact absurd blank (by decide)

theorem Universe.isLeafText_render (u : Universe) : IsLeafText u.render.toList := by
  cases u with
  | prop => exact (isToken_of_isWord (by decide)).isLeafText
  | set => exact (isToken_of_isWord (by decide)).isLeafText
  | type level =>
    refine ⟨"Type".toList, '@' :: '{' :: (Nat.toDigits 10 level ++ ['}']),
      isToken_of_isWord (by decide), isLevels_braced fun c member => .inl ?_, ?_⟩
    · have digit := Nat.isDigit_of_mem_toDigits (by decide) (by decide) member
      simp [isWordChar, Char.isAlphanum, digit]
    · rw [← Nat.toList_repr]
      simp [render]

namespace Levels

theorem isWordChar_of_mem_intercalate {levels : List String} {c : Char}
    (words : ∀ level ∈ levels, isWord level) (member : c ∈ (" ".intercalate levels).toList) :
    isWordChar c ∨ c = ' ' := by
  induction levels with
  | nil => cases member
  | cons level levels ih =>
    obtain ⟨word, words⟩ := List.forall_mem_cons.mp words
    cases levels with
    | nil =>
      rw [String.intercalate_singleton] at member
      exact .inl (isWordChar_of_isWord word member)
    | cons next levels =>
      rw [String.intercalate_cons_cons, String.toList_append, String.toList_append] at member
      simp only [List.mem_append] at member
      obtain (inside | blank) | rest := member
      · exact .inl (isWordChar_of_isWord word inside)
      · exact .inr (List.mem_singleton.mp blank)
      · exact ih words rest

theorem isLevels_render {l : Levels} (words : ∀ level ∈ l.levels, isWord level) :
    IsLevels l.render.toList := by
  unfold render
  split
  · exact .none
  · have braced := isLevels_braced fun c => isWordChar_of_mem_intercalate words
    simpa using braced

end Levels

end Readback
