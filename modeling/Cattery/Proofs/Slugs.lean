import Cattery.Cat.Basic
import Cattery.Proofs.Admission
import Cattery.Proofs.LowerCase

namespace Cattery

namespace Slug

variable {text rest : List Char} {c : Char}

/-! ## Word characters -/

theorem isWordChar_of_wordChar? {d : Char} (h : wordChar? c = some d) : isWordChar d = true := by
  rw [wordChar?] at h
  split_ifs at h with hword hcapital
  · obtain rfl := Option.some_inj.mp h
    exact hword
  · -- a capital becomes its small letter
    have hlower : asciiLower c = d := by
      rw [asciiLower, if_pos hcapital]
      exact Option.some_inj.mp h
    rw [Bool.and_eq_true, decide_eq_true_eq, decide_eq_true_eq] at hcapital
    have hlow : 65 ≤ c.toNat := hcapital.1
    have hhigh : c.toNat ≤ 90 := hcapital.2
    have hnat := Chars.toNat_asciiLower c
    rw [if_pos ⟨hlow, hhigh⟩, hlower] at hnat
    have hfirst : 97 ≤ d.toNat := by omega
    have hlast : d.toNat ≤ 122 := by omega
    have hsmall : 'a' ≤ d ∧ d ≤ 'z' := ⟨hfirst, hlast⟩
    simp [isWordChar, hsmall]

theorem wordChar?_of_isWordChar (h : isWordChar c = true) : wordChar? c = some c :=
  if_pos h

theorem ne_hyphen_of_isWordChar (h : isWordChar c = true) : c ≠ '-' := by
  rintro rfl
  cases h

/-! ## Words and hyphens -/

inductive Joined : List Char → Prop
  | nil : Joined []
  | word {c : Char} {rest : List Char} (hc : isWordChar c = true) (hrest : Joined rest) :
      Joined (c :: rest)
  | hyphen {c : Char} {rest : List Char} (hc : isWordChar c = true) (hrest : Joined rest) :
      Joined ('-' :: c :: rest)

/-- The invariant of the loop over a name once it has written a word character. -/
theorem joined_wordsFrom (gap : Bool) (name : List Char) : Joined (wordsFrom true gap name) := by
  induction name generalizing gap with
  | nil => exact .nil
  | cons c rest ih =>
    rw [wordsFrom]
    cases hword : wordChar? c with
    | none => exact ih true
    | some d =>
      have hd := isWordChar_of_wordChar? hword
      cases gap with
      | false => exact .word hd (ih false)
      | true => exact .hyphen hd (ih false)

/-- Before the first word character nothing is written. -/
theorem wordsFrom_false (gap : Bool) (name : List Char) : wordsFrom false gap name = [] ∨
    ∃ c rest, wordsFrom false gap name = c :: rest ∧ isWordChar c = true ∧ Joined rest := by
  induction name generalizing gap with
  | nil => exact Or.inl rfl
  | cons c rest ih =>
    rw [wordsFrom]
    cases hword : wordChar? c with
    | none => exact ih true
    | some d =>
      exact Or.inr ⟨d, _, rfl, isWordChar_of_wordChar? hword, joined_wordsFrom false rest⟩

theorem Joined.wordsFrom_eq (h : Joined text) : wordsFrom true false text = text := by
  induction h with
  | nil => rfl
  | word hc _ ih => simp [wordsFrom, wordChar?_of_isWordChar hc, ih]
  | hyphen hc _ ih =>
    have hhyphen : wordChar? '-' = none := by decide
    simp [wordsFrom, hhyphen, wordChar?_of_isWordChar hc, ih]

structure Hyphenated (text : List Char) : Prop where
  charset : ∀ c ∈ text, isWordChar c = true ∨ c = '-'
  last : text.getLast? ≠ some '-'
  single : ¬ ['-', '-'] <:+: text

theorem Hyphenated.word (hc : isWordChar c = true) (h : Hyphenated rest) :
    Hyphenated (c :: rest) where
  charset := List.forall_mem_cons.mpr ⟨Or.inl hc, h.charset⟩
  last := by
    cases rest with
    | nil => simpa using ne_hyphen_of_isWordChar hc
    | cons d rest => simpa using h.last
  single := by
    rw [List.infix_cons_iff, not_or, List.cons_prefix_cons]
    exact ⟨fun hprefix => ne_hyphen_of_isWordChar hc hprefix.1.symm, h.single⟩

theorem Hyphenated.hyphen (hc : isWordChar c = true) (h : Hyphenated (c :: rest)) :
    Hyphenated ('-' :: c :: rest) where
  charset := List.forall_mem_cons.mpr ⟨Or.inr rfl, h.charset⟩
  last := by simpa using h.last
  single := by
    rw [List.infix_cons_iff, not_or, List.cons_prefix_cons, List.cons_prefix_cons]
    exact ⟨fun hprefix => ne_hyphen_of_isWordChar hc hprefix.2.1.symm, h.single⟩

theorem Hyphenated.tail (h : Hyphenated (c :: rest)) : Hyphenated rest where
  charset := (List.forall_mem_cons.mp h.charset).2
  last := by
    cases rest with
    | nil => simp
    | cons d rest => simpa using h.last
  single := fun htwice => h.single (List.infix_cons_iff.mpr (Or.inr htwice))

theorem Joined.hyphenated (h : Joined text) : Hyphenated text := by
  induction h with
  | nil => exact ⟨by simp, by simp, by simp⟩
  | word hc _ ih => exact ih.word hc
  | hyphen hc _ ih => exact (ih.word hc).hyphen hc

theorem Hyphenated.joined : (text : List Char) → Hyphenated text → Joined text
  | [], _ => .nil
  | [c], h => by
    rcases h.charset c List.mem_cons_self with hc | rfl
    · exact .word hc .nil
    · exact absurd rfl h.last
  | c :: d :: rest, h => by
    have hrest := Hyphenated.joined (d :: rest) h.tail
    rcases h.charset c List.mem_cons_self with hc | rfl
    · exact .word hc hrest
    · -- a second hyphen here would be one too many
      cases hrest with
      | word hd hrest => exact .hyphen hd hrest
      | hyphen _ _ => exact absurd ⟨[], _, rfl⟩ h.single

/-! ## Slugs -/

/-- The form of the slugs that are made from names. -/
theorem isSlug_and_single_iff (slug : String) : IsSlug slug ∧ ¬ ['-', '-'] <:+: slug.toList ↔
    ∃ c rest, slug.toList = c :: rest ∧ isWordChar c = true ∧ Joined rest := by
  have hchar (d : Char) : isWordChar d = true ∨ d = '-' ↔
      ('a' ≤ d ∧ d ≤ 'z') ∨ ('0' ≤ d ∧ d ≤ '9') ∨ d = '-' := by
    rw [← isWordChar_or_hyphen_iff, Bool.or_eq_true, beq_iff_eq]
  constructor
  · rintro ⟨h, hsingle⟩
    have hyphenated : Hyphenated slug.toList :=
      ⟨fun d hd => (hchar d).mpr (h.charset d hd), h.last, hsingle⟩
    cases hslug : slug.toList with
    | nil => exact absurd (String.toList_eq_nil_iff.mp hslug) h.ne_empty
    | cons c rest =>
      rw [hslug] at hyphenated
      refine ⟨c, rest, rfl, ?_, Hyphenated.joined rest hyphenated.tail⟩
      refine (hyphenated.charset c List.mem_cons_self).resolve_right ?_
      rintro rfl
      exact h.head (by rw [hslug, List.head?_cons])
  · rintro ⟨c, rest, hslug, hc, hrest⟩
    have hyphenated := hrest.hyphenated.word hc
    rw [← hslug] at hyphenated
    refine ⟨⟨?_, fun d hd => (hchar d).mp (hyphenated.charset d hd), ?_, hyphenated.last⟩,
      hyphenated.single⟩
    · rintro rfl
      cases hslug
    · rw [hslug, List.head?_cons]
      simpa using ne_hyphen_of_isWordChar hc

theorem isSlug_ofName (name : String) :
    IsSlug (ofName name) ∧ ¬ ['-', '-'] <:+: (ofName name).toList := by
  rw [isSlug_and_single_iff, ofName]
  rcases wordsFrom_false false name.toList with hnone | ⟨c, rest, hwords, hc, hrest⟩
  · rw [hnone]
    exact ⟨'c', ['a', 't'], rfl, by decide, .word (by decide) (.word (by decide) .nil)⟩
  · rw [hwords]
    exact ⟨c, rest, String.toList_ofList, hc, hrest⟩

/-- The slugs without two hyphens in a row are the texts that give themselves. -/
theorem ofName_eq_self_iff (slug : String) :
    ofName slug = slug ↔ IsSlug slug ∧ ¬ ['-', '-'] <:+: slug.toList := by
  constructor
  · intro h
    rw [← h]
    exact isSlug_ofName slug
  · intro h
    obtain ⟨c, rest, hslug, hc, hrest⟩ := (isSlug_and_single_iff slug).mp h
    have hwords : wordsFrom false false slug.toList = slug.toList := by
      rw [hslug, wordsFrom, wordChar?_of_isWordChar hc]
      simp [hrest.wordsFrom_eq]
    rw [ofName, hwords, hslug]
    exact (congrArg String.ofList hslug).symm.trans String.ofList_toList

theorem trim_of_isSlug {slug : String} (h : IsSlug slug) : Text.trim slug = slug := by
  have hblank (c : Char) (hc : c ∈ slug.toList) : isBlank c = false := by
    have hrange : 45 ≤ c.toNat ∧ c.toNat ≤ 122 := by
      rcases h.charset c hc with ⟨hlow, hhigh⟩ | ⟨hlow, hhigh⟩ | rfl
      · have hlow : 97 ≤ c.toNat := hlow
        have hhigh : c.toNat ≤ 122 := hhigh
        omega
      · have hlow : 48 ≤ c.toNat := hlow
        have hhigh : c.toNat ≤ 57 := hhigh
        omega
      · decide
    simp [isBlank]
    omega
  have htrim : Chars.trim slug.toList = slug.toList :=
    (Chars.trim_eq_self_iff _).mpr ⟨fun c hc => hblank c (List.mem_of_mem_head? hc),
      fun c hc => hblank c (List.mem_of_mem_getLast? hc)⟩
  rw [Text.trim, htrim, String.ofList_toList]

end Slug

open Slug

/-- Whether the slug was given or made, it is one. -/
theorem Cat.isSlug_of_resolvedSlug {cat : Cat} {slug : String} (h : cat.resolvedSlug = .ok slug) :
    IsSlug slug := by
  rw [resolvedSlug] at h
  cases hgiven : cat.slug.bind Text.nonBlank? with
  | none =>
    rw [hgiven] at h
    obtain rfl := Except.ok.inj h
    exact (isSlug_ofName cat.name).1
  | some given =>
    rw [hgiven] at h
    obtain ⟨rfl, hslug⟩ := check_eq_ok_iff.mp h
    exact hslug

namespace Run

open Program

variable {endpoint : Endpoint} {token : Credential} {slug : String} {input : Input}
  {options : Options} {log : List Performed} {report : Report}

/-- A run with a slug is refused for the other parts of its input only. -/
theorem refused_iff_of_isSlug (hslug : IsSlug slug)
    (h : Runs (execute endpoint token slug input options) log report) :
    (∃ reason, report.outcome = .error (.invalidInput reason)) ↔
      input.parts = [] ∨ token.value = "" := by
  by_cases hadmitted : Admitted token slug input
  · have hfree : ¬ (input.parts = [] ∨ token.value = "") := by
      rintro (hparts | htoken)
      · exact hadmitted.parts hparts
      · exact hadmitted.token htoken
    refine iff_of_false ?_ hfree
    rintro ⟨reason, hreason⟩
    rcases (runs_iff_of_admitted hadmitted).mp h with ⟨-, -, rfl⟩ | ⟨_, reply, -, -, rfl⟩
    · cases hreason
    · exact ofReply_ne_invalidInput options reply reason hreason
  · have hgates : input.parts = [] ∨ token.value = "" := by
      by_contra hfree
      rw [not_or] at hfree
      exact hadmitted ⟨hfree.1, by rwa [trim_of_isSlug hslug], hfree.2⟩
    obtain ⟨reason, hreason⟩ := @runs_iff_of_not_admitted endpoint _ _ _ options hadmitted
    obtain ⟨-, rfl⟩ := (hreason _ _).mp h
    exact iff_of_true ⟨reason, rfl⟩ hgates

end Run

open Program Run

/-- Every name gives a slug, which gives itself, and so does every slug without two hyphens in a
row. The slug of a cat is one that no run refuses, and its model is named after it. -/
theorem usable_slugs :
    (∀ name, check (ofName name) = .ok (ofName name) ∧ ¬ ['-', '-'] <:+: (ofName name).toList ∧
      ofName (ofName name) = ofName name) ∧
    (∀ slug, check slug = .ok slug → ¬ ['-', '-'] <:+: slug.toList → ofName slug = slug) ∧
    ∀ (cat : Cat) (slug : String), cat.resolvedSlug = .ok slug →
      Text.trim slug = slug ∧ check slug = .ok slug ∧ cat.modelName = .ok ("cat:" ++ slug) ∧
      ∀ endpoint token input options log report,
        Runs (execute endpoint token slug input options) log report →
        ((∃ reason, report.outcome = .error (.invalidInput reason)) ↔
          input.parts = [] ∨ token.value = "") := by
  refine ⟨fun name => ?_, fun slug hslug hsingle => ?_, fun cat slug h => ?_⟩
  · have hname := isSlug_ofName name
    exact ⟨check_eq_ok_iff.mpr ⟨rfl, hname.1⟩, hname.2, (ofName_eq_self_iff _).mpr hname⟩
  · exact (ofName_eq_self_iff slug).mpr ⟨(check_eq_ok_iff.mp hslug).2, hsingle⟩
  · have hslug := Cat.isSlug_of_resolvedSlug h
    refine ⟨trim_of_isSlug hslug, check_eq_ok_iff.mpr ⟨rfl, hslug⟩, ?_, ?_⟩
    · rw [Cat.modelName, h]
      rfl
    · intro endpoint token input options log report hruns
      exact refused_iff_of_isSlug hslug hruns

def roofCat : Cat where
  name := " --Röof: Lines!! v2 "
  description := ""
  slug := some "\troof--lines "
  steps := []

theorem usable_slugs_roofCat :
    ofName roofCat.name = "r-of-lines-v2" ∧ ofName "r-of-lines-v2" = "r-of-lines-v2" ∧
    roofCat.resolvedSlug = .ok "roof--lines" ∧ ofName "roof--lines" = "roof-lines" ∧
    roofCat.modelName = .ok ("cat:" ++ "roof--lines") ∧
    ∀ log report, Runs (execute nearby (.given "t") "roof--lines" greeting ⟨false, false, true⟩) log
      report → ¬ ∃ reason, report.outcome = .error (.invalidInput reason) := by
  have hmade : ofName roofCat.name = "r-of-lines-v2" := by decide +kernel
  have hresolved : roofCat.resolvedSlug = .ok "roof--lines" := by decide +kernel
  obtain ⟨hnames, hslugs, hcats⟩ := usable_slugs
  obtain ⟨hcheck, hsingle, -⟩ := hnames roofCat.name
  rw [hmade] at hcheck hsingle
  obtain ⟨-, -, hmodel, hruns⟩ := hcats roofCat "roof--lines" hresolved
  refine ⟨hmade, hslugs _ hcheck hsingle, hresolved, by decide +kernel, hmodel, ?_⟩
  intro log report h
  rw [hruns _ _ _ _ _ _ h]
  exact by decide +kernel

end Cattery
