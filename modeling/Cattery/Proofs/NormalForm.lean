import Cattery.Proofs.RoundTrip

namespace Cattery

namespace Directive

variable {directive : Directive}

theorem Normal.trim_modelId (h : directive.Normal) :
    Text.trim directive.modelId = directive.modelId := by
  have hlower : Chars.lowercase (Chars.trim directive.modelId.toList) =
      directive.modelId.toList := by
    simpa using congrArg String.toList h.modelId_lower
  rw [← String.toList_inj, Text.toList_trim]
  -- lower case brings no white space to the ends of a trimmed text
  calc Chars.trim directive.modelId.toList
      = Chars.trim (Chars.lowercase (Chars.trim directive.modelId.toList)) := by rw [hlower]
    _ = Chars.lowercase (Chars.trim directive.modelId.toList) :=
        Chars.trim_lowercase (Chars.trim_trim _)
    _ = directive.modelId.toList := hlower

theorem Normal.lowercase_modelId (h : directive.Normal) :
    Text.lowercase directive.modelId = directive.modelId := by
  have hlower := h.modelId_lower
  rwa [h.trim_modelId] at hlower

end Directive

namespace Document

theorem steps_decode (raw : String) :
    (decode raw).steps = Directive.sort ((Segment.blocks raw.toList).filterMap directive?) := by
  rw [decode, decodeChars]
  split
  · rfl
  · rename_i hplain
    have hnone : Segment.blocks raw.toList = [] :=
      Segment.blocks_of_firstBlock?_eq_none
        (Segment.firstBlock?_eq_none fun hopen => hplain (isTagged_of_opensStep hopen))
    rw [hnone]
    exact (Directive.sort_eq_self List.Pairwise.nil).symm

/-- Whatever the text, its global text is trimmed and its directives are as an encoder keeps them:
in order, with their models trimmed and in lower case, their bodies trimmed, and none of the marks
that end these. Directives of one index are in the order of their blocks. -/
theorem normalForm_decode (raw : String) :
    Text.trim (decode raw).globalText = (decode raw).globalText ∧
    Directive.sanitize (decode raw).steps = (decode raw).steps ∧
    ((decode raw).steps.Pairwise fun a b => a.index ≤ b.index) ∧
    (∀ step ∈ (decode raw).steps,
      0 < step.index ∧
      (Text.trim step.modelId = step.modelId ∧ Text.lowercase step.modelId = step.modelId ∧
        step.modelId ≠ "") ∧
      (Text.trim step.instructions = step.instructions ∧ step.instructions ≠ "") ∧
      ¬ Tag.stepClose <:+: step.instructions.toList ∧
      '"' ∉ step.modelId.toList ∧ ']' ∉ step.modelId.toList) ∧
    ∀ index, (decode raw).steps.filter (fun step => step.index = index) =
      ((Segment.blocks raw.toList).filterMap directive?).filter fun step => step.index = index := by
  have hcanonical := canonical_decode raw
  refine ⟨hcanonical.globalText_trimmed, ?_, hcanonical.steps_sorted, ?_, ?_⟩
  · exact Directive.sanitize_eq_self hcanonical.steps_normal hcanonical.steps_sorted
  · intro step hstep
    have hnormal := hcanonical.steps_normal step hstep
    have hreadable := hcanonical.steps_readable step hstep
    exact ⟨UInt32.pos_iff_ne_zero.mpr hnormal.index_ne_zero,
      ⟨hnormal.trim_modelId, hnormal.lowercase_modelId, hnormal.modelId_ne_empty⟩,
      ⟨hnormal.instructions_trimmed, hnormal.instructions_ne_empty⟩,
      hreadable.instructions_closed, hreadable.modelId_unquoted, hreadable.modelId_closed⟩
  · intro index
    rw [steps_decode, Directive.filter_index_sort]

def capitals : String :=
  "[step index=\"2\" model=\" \u0130\"] b [/step] [step index=\"0\" model=\"m\"]x[/step]" ++
    "[step index=\"1\" model=\"\u0391\u03a3\"]a[/step][step index=\"2\" model=\"m\"]c[/step]"

theorem normalForm_decode_capitals :
    (decode capitals).steps.filter (fun step => step.index = 2) =
        [⟨2, "i\u0307", "b"⟩, ⟨2, "m", "c"⟩] ∧
      (decode capitals).steps.filter (fun step => step.index = 1) =
        [⟨1, "\u03b1\u03c2", "a"⟩] ∧
      Directive.sanitize (decode capitals).steps = (decode capitals).steps := by
  obtain ⟨-, hsanitize, -, -, hblocks⟩ := normalForm_decode capitals
  have hread : (Segment.blocks capitals.toList).filterMap directive? =
      [⟨2, "i\u0307", "b"⟩, ⟨1, "\u03b1\u03c2", "a"⟩, ⟨2, "m", "c"⟩] := by
    decide +kernel
  rw [hblocks, hblocks, hread]
  exact ⟨rfl, rfl, hsanitize⟩

end Document

end Cattery
