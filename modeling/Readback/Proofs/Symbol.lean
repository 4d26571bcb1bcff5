import Readback.Build.Options
import Readback.Evaluation.Registry
import Readback.Proofs.Except
import Readback.Proofs.FreshName

/-!
# Native symbols are identifiers

The name that a request gets is made of characters of C identifiers, and counting it up touches no
more than the digits at its end. So whatever names are used already, the native symbol of a request
is a C identifier, and options that name an artifact by it are as good as those that they come from.

## Main definitions

* `IsIdentifier` — C identifiers
* `Options.Valid` — options in which all but the output directory is in order

## Main statements

* `isIdentifier_cSymbol` — the identifier of a request is a C identifier
* `IsIdentifier.increment` — and so is the next one
* `IsIdentifier.freshName` — a fresh name for an identifier is an identifier
* `Options.check_eq_ok_iff` — the options that are accepted
* `reserved_symbol_isIdentifier` — symbols from a registry, and options with them
-/

namespace Readback

/-- A C identifier: characters of identifiers, at least one, and no digit in front. -/
structure IsIdentifier (name : String) : Prop where
  chars : ∀ c ∈ name.toList, isIdentifierChar c
  start : ∃ c cs, name.toList = c :: cs ∧ c.isDigit = false

/-! ## Counting up -/

theorem isIdentifierChar_of_isDigit {c : Char} (digit : c.isDigit) : isIdentifierChar c := by
  simp [isIdentifierChar, Char.isAlphanum, digit]

namespace IsIdentifier

variable {name : String}

/-- The next name after an identifier is an identifier. -/
theorem increment (identifier : IsIdentifier name) : IsIdentifier (increment name) := by
  obtain ⟨digits, next, areDigits, -⟩ := exists_toList_increment name
  have kept : name.toList.rdropWhile Char.isDigit <+: name.toList :=
    List.rdropWhile_prefix Char.isDigit _
  constructor
  · intro c member
    rw [next] at member
    rcases List.mem_append.mp member with inStem | inDigits
    · exact identifier.chars c (kept.subset inStem)
    · exact isIdentifierChar_of_isDigit (areDigits c inDigits)
  · obtain ⟨first, rest, chars, notDigit⟩ := identifier.start
    cases stem : name.toList.rdropWhile Char.isDigit with
    | nil =>
      have digit := List.rdropWhile_eq_nil_iff.mp stem first (by simp [chars])
      rw [notDigit] at digit
      cases digit
    | cons c cs =>
      rw [stem, chars, List.cons_prefix_cons] at kept
      obtain ⟨rfl, -⟩ := kept
      exact ⟨c, cs ++ digits, by rw [next, stem]; rfl, notDigit⟩

end IsIdentifier

namespace FreshName

/-- What holds of a base and goes on to the next name holds of the name that is found. -/
theorem search_induction {P : String → Prop} (next : ∀ name, P name → P (increment name))
    {base : String} (holds : P base) (used : List String) : P (search base used).name := by
  fun_induction search base used with
  | case1 base used taken shorter rest ih => exact ih (next base holds)
  | case2 base used free => exact holds

end FreshName

/-- A fresh name for an identifier is an identifier. -/
theorem IsIdentifier.freshName {base : String} (identifier : IsIdentifier base)
    (used : List String) : IsIdentifier (freshName base used) :=
  FreshName.search_induction (fun _ holds => holds.increment) identifier used

/-- Counting up keeps what stands before the digits at the end. -/
theorem rdropWhile_increment (name : String) :
    (increment name).toList.rdropWhile Char.isDigit = name.toList.rdropWhile Char.isDigit := by
  obtain ⟨digits, next, areDigits, -⟩ := exists_toList_increment name
  rw [next, rdropWhile_append_of_pos areDigits]
  exact List.rdropWhile_idempotent _ _

/-- A fresh name is the base without the digits at its end, followed by digits. -/
theorem exists_toList_freshName (base : String) (used : List String) : ∃ digits : List Char,
    (freshName base used).toList = base.toList.rdropWhile Char.isDigit ++ digits ∧
      ∀ c ∈ digits, c.isDigit := by
  have stem : (freshName base used).toList.rdropWhile Char.isDigit =
      base.toList.rdropWhile Char.isDigit :=
    FreshName.search_induction (fun name same => (rdropWhile_increment name).trans same) rfl used
  refine ⟨(freshName base used).toList.rtakeWhile Char.isDigit, ?_, fun c member => ?_⟩
  · rw [← stem, List.rdropWhile_append_rtakeWhile]
  · exact List.mem_rtakeWhile_imp member

/-! ## Requests -/

/-- The identifier that a request gets is a C identifier. -/
theorem isIdentifier_cSymbol (symbolPrefix id : String) :
    IsIdentifier (cSymbol symbolPrefix id) := by
  have allowed : ∀ c ∈ (symbolPrefix.toList ++ id.toList).map fun c =>
      if isIdentifierChar c then c else '_', isIdentifierChar c := by
    intro c member
    obtain ⟨d, -, rfl⟩ := List.mem_map.mp member
    by_cases valid : isIdentifierChar d
    · rwa [if_pos valid]
    · rw [if_neg valid]
      rfl
  unfold cSymbol
  dsimp only
  cases chars : (symbolPrefix.toList ++ id.toList).map fun c =>
      if isIdentifierChar c then c else '_' with
  | nil =>
    refine ⟨fun c member => ?_, '_', [], rfl, rfl⟩
    obtain rfl : c = '_' := by simpa using member
    rfl
  | cons c cs =>
    rw [chars] at allowed
    by_cases digit : c.isDigit
    · simp only [if_pos digit]
      refine ⟨?_, '_', c :: cs, String.toList_ofList, rfl⟩
      rw [String.toList_ofList]
      exact List.forall_mem_cons.mpr ⟨rfl, allowed⟩
    · simp only [if_neg digit]
      refine ⟨?_, c, cs, String.toList_ofList, by simpa using digit⟩
      rw [String.toList_ofList]
      exact allowed

/-! ## Options -/

namespace Options

variable {o : Options} {files : FileTree}

/-- The level is in range, there are names for the files and for the entry point, and the prefix and
the entry point have no other characters than C identifiers. -/
structure Valid (o : Options) : Prop where
  optLevel : o.optLevel ≤ 3
  fileStem : o.fileStem ≠ ""
  entryName : o.entryName ≠ ""
  prefixChars : isIdentifierFragment o.symbolPrefix
  entryChars : isIdentifierFragment o.entryName

/-- Options are accepted if they are valid and there is the output directory. -/
theorem check_eq_ok_iff :
    o.check files = .ok () ↔
      files.present o.outputDir ∧ files.isDirectory o.outputDir ∧ o.Valid := by
  unfold check
  dsimp only
  simp only [unless_throw_eq_ok, unless_throw_pure_eq_ok, Bool.not_eq_true, Bool.not_eq_false',
    Nat.not_lt]
  constructor
  · rintro ⟨present, directory, level, stem, entry, prefixChars, entryChars⟩
    exact ⟨present, directory, level, stem, entry, prefixChars, entryChars⟩
  · rintro ⟨present, directory, level, stem, entry, prefixChars, entryChars⟩
    exact ⟨present, directory, level, stem, entry, prefixChars, entryChars⟩

/-- A C identifier names an artifact as well as the names of valid options. -/
theorem Valid.forArtifact {symbol : String} (valid : o.Valid) (identifier : IsIdentifier symbol) :
    (o.forArtifact symbol).Valid := by
  obtain ⟨first, rest, chars, -⟩ := identifier.start
  have some : symbol ≠ "" := by
    rintro rfl
    cases chars
  exact
    { optLevel := valid.optLevel
      fileStem := some
      entryName := some
      prefixChars := valid.prefixChars
      entryChars := List.all_eq_true.mpr identifier.chars }

end Options

/-- The symbol that a registry reserves for a request is a C identifier, whatever names are used: it
has letters, digits and underscores only, at least one of them, and no digit in front. It differs
from the identifier of the request in the digits at the end only. Options that were accepted name
their files and their entry point by this symbol afterwards, they are accepted again, and nothing
else about them has changed. -/
theorem reserved_symbol_isIdentifier {Entry : Type} (r : Registry Entry)
    (symbolPrefix id : String) :
    let base := cSymbol symbolPrefix id
    let symbol := (r.reserve base).1
    (∀ c ∈ symbol.toList, c.isAlphanum ∨ c = '_') ∧
    (∃ first rest, symbol.toList = first :: rest ∧ ¬ first.isDigit) ∧
    (∃ digits : List Char, symbol.toList = base.toList.rdropWhile Char.isDigit ++ digits ∧
      ∀ c ∈ digits, c.isDigit) ∧
    ∀ (o : Options) (files : FileTree), o.check files = .ok () →
      (o.forArtifact symbol).fileStem = symbol ∧ (o.forArtifact symbol).entryName = symbol ∧
      (o.forArtifact symbol).Valid ∧ (o.forArtifact symbol).check files = .ok () ∧
      { o.forArtifact symbol with fileStem := o.fileStem, entryName := o.entryName } = o := by
  intro base symbol
  have identifier : IsIdentifier symbol :=
    (isIdentifier_cSymbol symbolPrefix id).freshName r.usedNames
  refine ⟨fun c member => ?_, ?_, exists_toList_freshName base r.usedNames, ?_⟩
  · simpa [isIdentifierChar] using identifier.chars c member
  · obtain ⟨first, rest, chars, notDigit⟩ := identifier.start
    exact ⟨first, rest, chars, by simp [notDigit]⟩
  · intro o files accepted
    obtain ⟨present, directory, valid⟩ := Options.check_eq_ok_iff.mp accepted
    have renamed := valid.forArtifact identifier
    exact ⟨rfl, rfl, renamed, Options.check_eq_ok_iff.mpr ⟨present, directory, renamed⟩, rfl⟩

/-- The symbol for a list function whose identifier is taken, and options with this symbol. -/
theorem reserved_symbol_isIdentifier_map :
    let r : Registry Unit := { symbols := ["k_List_map_"] }
    let o : Options := { outputDir := ⟨"out"⟩, symbolPrefix := "k_" }
    let files : FileTree := { nodes := [(["out"], .directory)] }
    (r.reserve (cSymbol o.symbolPrefix "List.map'")).1 = "k_List_map_0" ∧
      o.check files = .ok () ∧ (o.forArtifact "k_List_map_0").fileStem = "k_List_map_0" ∧
      (o.forArtifact "k_List_map_0").check files = .ok () := by
  intro r o files
  have reserved : (r.reserve (cSymbol o.symbolPrefix "List.map'")).1 = "k_List_map_0" := by
    decide +kernel
  have accepted : o.check files = .ok () := by decide +kernel
  obtain ⟨-, -, -, derived⟩ := reserved_symbol_isIdentifier r o.symbolPrefix "List.map'"
  rw [reserved] at derived
  obtain ⟨stem, -, -, acceptedAgain, -⟩ := derived o files accepted
  exact ⟨reserved, accepted, stem, acceptedAgain⟩

end Readback
