import Cattery.Proofs.Kept

namespace Cattery

namespace Directive

variable {a b : List Directive} {directive kept : Directive}

theorem index_le_of_mem_cons {first : Directive} {rest : List Directive}
    (h : (first :: rest).Pairwise fun x y => x.index ≤ y.index) (hmem : directive ∈ first :: rest) :
    first.index ≤ directive.index := by
  rcases List.mem_cons.mp hmem with rfl | hmem
  · exact UInt32.le_refl _
  · exact (List.pairwise_cons.mp h).1 directive hmem

theorem mem_of_filter_index_eq
    (h : ∀ index, a.filter (fun d => d.index = index) = b.filter fun d => d.index = index)
    (hmem : directive ∈ a) : directive ∈ b := by
  have hfilter : directive ∈ a.filter fun d => d.index = directive.index :=
    List.mem_filter.mpr ⟨hmem, decide_eq_true rfl⟩
  rw [h] at hfilter
  exact (List.mem_filter.mp hfilter).1

/-- Directives in order are determined by those of each index. -/
theorem eq_of_filter_index_eq (ha : a.Pairwise fun x y => x.index ≤ y.index)
    (hb : b.Pairwise fun x y => x.index ≤ y.index)
    (h : ∀ index, a.filter (fun d => d.index = index) = b.filter fun d => d.index = index) :
    a = b := by
  induction a generalizing b with
  | nil =>
    apply (List.eq_nil_iff_forall_not_mem.mpr _).symm
    intro directive hmem
    exact List.not_mem_nil (mem_of_filter_index_eq (fun index => (h index).symm) hmem)
  | cons x xs ih =>
    cases b with
    | nil => exact absurd (mem_of_filter_index_eq h List.mem_cons_self) List.not_mem_nil
    | cons y ys =>
      -- each of the first ones stands in the other list, so that none comes before the other
      have hindex : x.index = y.index := by
        apply UInt32.le_antisymm
        · apply index_le_of_mem_cons ha
          exact mem_of_filter_index_eq (fun index => (h index).symm) List.mem_cons_self
        · exact index_le_of_mem_cons hb (mem_of_filter_index_eq h List.mem_cons_self)
      have hfirst := h x.index
      rw [List.filter_cons_of_pos (by simp), List.filter_cons_of_pos (by simp [hindex])] at hfirst
      obtain ⟨rfl, -⟩ := List.cons.inj hfirst
      have hrest : xs = ys := by
        apply ih (List.pairwise_cons.mp ha).2 (List.pairwise_cons.mp hb).2
        intro index
        have hfilter := h index
        rw [List.filter_cons, List.filter_cons] at hfilter
        split at hfilter
        · exact (List.cons.inj hfilter).2
        · exact hfilter
      rw [hrest]

theorem sort_eq_sort
    (h : ∀ index, a.filter (fun d => d.index = index) = b.filter fun d => d.index = index) :
    sort a = sort b := by
  apply eq_of_filter_index_eq (pairwise_sort a) (pairwise_sort b)
  intro index
  rw [filter_index_sort, filter_index_sort, h]

def Unwritable (directive : Directive) : Prop :=
  directive.index = 0 ∨ Text.isBlank directive.modelId = true ∨
    Text.isBlank directive.instructions = true

theorem sanitized?_eq_none_iff : directive.sanitized? = none ↔ directive.Unwritable := by
  rw [Unwritable, ← Text.trim_eq_empty_iff, ← Text.trim_eq_empty_iff,
    ← Text.lowercase_eq_empty_iff (Text.trim directive.modelId)]
  simp [sanitized?, or_iff_not_imp_left]

theorem index_of_sanitized?_eq_some (h : directive.sanitized? = some kept) :
    kept.index = directive.index := by
  rw [sanitized?] at h
  split at h
  · cases h
  · obtain rfl := Option.some_inj.mp h
    rfl

theorem filter_index_filterMap (index : UInt32) (directives : List Directive) :
    (directives.filterMap sanitized?).filter (fun d => d.index = index) =
      (directives.filter fun d => d.index = index).filterMap sanitized? := by
  rw [List.filter_filterMap, List.filterMap_filter]
  apply List.filterMap_congr
  intro directive _
  cases hkept : directive.sanitized? with
  | none => simp
  | some kept =>
    have hindex := index_of_sanitized?_eq_some hkept
    simp [Option.filter, hindex]

/-- An edit of directives: another order in which those of each index keep theirs, or one more that
cannot be written. -/
inductive Edit (a b : List Directive) : Prop
  | reorder
      (horder : ∀ index, a.filter (fun d => d.index = index) = b.filter fun d => d.index = index)
  | insert {front back : List Directive} {directive : Directive} (h : directive.Unwritable)
      (ha : a = front ++ back) (hb : b = front ++ directive :: back)

theorem Edit.sanitize_eq (h : Edit a b) : sanitize a = sanitize b := by
  cases h with
  | reorder horder =>
    apply sort_eq_sort
    intro index
    rw [filter_index_filterMap, filter_index_filterMap, horder]
  | insert h ha hb =>
    have hnone := sanitized?_eq_none_iff.mpr h
    rw [ha, hb, sanitize, sanitize, List.filterMap_append, List.filterMap_append,
      List.filterMap_cons_none hnone]

theorem sanitize_eq_of_edits (h : Relation.EqvGen Edit a b) : sanitize a = sanitize b :=
  eq_of_eqvGen (fun _ _ hedit => Edit.sanitize_eq hedit) h

theorem sanitize_of_unwritable (h : ∀ directive ∈ a, directive.Unwritable) : sanitize a = [] := by
  have hnone : a.filterMap sanitized? = [] := by
    rw [List.filterMap_eq_nil_iff]
    exact fun directive hmem => sanitized?_eq_none_iff.mpr (h directive hmem)
  rw [sanitize, hnone]
  exact sort_eq_self List.Pairwise.nil

end Directive

namespace Document

theorem encode_congr {document other : Document}
    (hglobal : Text.trim document.globalText = Text.trim other.globalText)
    (hsteps : Directive.sanitize document.steps = Directive.sanitize other.steps) :
    encode document = encode other := by
  unfold encode
  simp only [hglobal, hsteps]

/-- A document has one text: it is the text of its trimmed global text and its directives as they are
kept, and no edit of its directives changes it. Without a directive that can be written it is the
text of a document without directives. -/
theorem encode_canonical (document : Document) :
    encode ⟨Text.trim document.globalText, Directive.sanitize document.steps⟩ = encode document ∧
    (∀ steps, Relation.EqvGen Directive.Edit document.steps steps →
      encode { document with steps } = encode document) ∧
    ((∀ step ∈ document.steps, step.Unwritable) →
      encode document = encode (plain document.globalText)) := by
  refine ⟨?_, ?_, ?_⟩
  · rw [encode_sanitize]
    exact encode_congr (Text.trim_trim _) rfl
  · intro steps hedits
    exact encode_congr rfl (Directive.sanitize_eq_of_edits hedits).symm
  · intro hsteps
    have hnone : Directive.sanitize document.steps = Directive.sanitize [] := by
      rw [Directive.sanitize_of_unwritable hsteps, Directive.sanitize_of_unwritable (by simp)]
    exact encode_congr rfl hnone

/-- Two directives of one index, another one that stood between them and now comes first, and one
that cannot be written. -/
theorem encode_canonical_moved :
    encode ⟨" g", [⟨1, "n", "b"⟩, ⟨2, "M", "a"⟩, ⟨3, "\t", "y"⟩, ⟨2, "k", "c\n"⟩]⟩ =
      encode ⟨" g", [⟨2, "M", "a"⟩, ⟨1, "n", "b"⟩, ⟨2, "k", "c\n"⟩]⟩ ∧
    encode ⟨" g", [⟨3, "\t", "y"⟩]⟩ = encode (plain " g") := by
  have hmove : Directive.Edit [⟨2, "M", "a"⟩, ⟨1, "n", "b"⟩, ⟨2, "k", "c\n"⟩]
      [⟨1, "n", "b"⟩, ⟨2, "M", "a"⟩, ⟨2, "k", "c\n"⟩] := by
    apply Directive.Edit.reorder
    intro index
    by_cases h : index = 2
    · subst h
      rfl
    · simp [List.filter_cons, Ne.symm h]
  have hunwritable : Directive.Unwritable ⟨3, "\t", "y"⟩ := Or.inr (Or.inl (by decide))
  have hinsert : Directive.Edit [⟨1, "n", "b"⟩, ⟨2, "M", "a"⟩, ⟨2, "k", "c\n"⟩]
      [⟨1, "n", "b"⟩, ⟨2, "M", "a"⟩, ⟨3, "\t", "y"⟩, ⟨2, "k", "c\n"⟩] :=
    @Directive.Edit.insert _ _ [⟨1, "n", "b"⟩, ⟨2, "M", "a"⟩] _ _ hunwritable rfl rfl
  constructor
  · obtain ⟨-, hedits, -⟩ :=
      encode_canonical ⟨" g", [⟨2, "M", "a"⟩, ⟨1, "n", "b"⟩, ⟨2, "k", "c\n"⟩]⟩
    exact hedits _ (.trans _ _ _ (.rel _ _ hmove) (.rel _ _ hinsert))
  · obtain ⟨-, -, hnone⟩ := encode_canonical ⟨" g", [⟨3, "\t", "y"⟩]⟩
    exact hnone (List.forall_mem_singleton.mpr hunwritable)

end Document

end Cattery
