import Cattery.Proofs.Lines
import Cattery.World.Path

namespace Cattery.Path

inductive Component where
  | root
  | current
  | parent
  | normal (name : String)
deriving DecidableEq, Repr

def Component.isNormal : Component → Bool
  | .normal _ => true
  | _ => false

def component? (piece : String) : Option Component :=
  if piece = "" ∨ piece = "." then none
  else if piece = ".." then some .parent
  else some (.normal piece)

def start (path : String) : List Component :=
  if isAbsolute path then [.root] else if (pieces path).head? = some "." then [.current] else []

def parts (path : String) : List Component :=
  start path ++ (pieces path).filterMap component?

theorem exists_of_isNormal {component : Component} (h : component.isNormal = true) :
    ∃ name, component = .normal name := by
  cases component with
  | normal name => exact ⟨name, rfl⟩
  | root | current | parent => cases h

theorem map_normal_of_isNormal {components : List Component}
    (h : ∀ component ∈ components, component.isNormal = true) :
    ∃ names : List String, components = names.map .normal := by
  induction components with
  | nil => exact ⟨[], rfl⟩
  | cons component rest ih =>
    obtain ⟨hfirst, hrest⟩ := List.forall_mem_cons.mp h
    obtain ⟨name, rfl⟩ := exists_of_isNormal hfirst
    obtain ⟨names, rfl⟩ := ih hrest
    exact ⟨name :: names, rfl⟩

theorem pieces_append (front back : String) :
    pieces (front ++ "/" ++ back) = pieces front ++ pieces back := by
  have hslash : "/".toList = ['/'] := rfl
  rw [pieces, String.toList_append, String.toList_append, hslash, List.append_assoc,
    List.singleton_append, splitOn_append, List.map_append, pieces, pieces]

theorem pieces_ne_nil (path : String) : pieces path ≠ [] := by
  rw [pieces, ne_eq, List.map_eq_nil_iff]
  exact splitOn_ne_nil '/' path.toList

theorem pieces_append_slash (front : String) : pieces (front ++ "/") = pieces front ++ [""] := by
  have hempty : pieces "" = [""] := rfl
  rw [← hempty, ← pieces_append, String.append_empty]

/-- Only `..` is a piece that goes up. -/
theorem isNormal_of_component? {piece : String} (h : piece ≠ "..") {component : Component}
    (hcomponent : component? piece = some component) : component.isNormal = true := by
  rw [component?, if_neg h] at hcomponent
  split at hcomponent
  · cases hcomponent
  · cases hcomponent
    rfl

theorem start_eq_nil_iff (path : String) :
    start path = [] ↔ isAbsolute path = false ∧ (pieces path).head? ≠ some "." := by
  rw [start]
  split <;> simp_all

/-- No path starts with a name besides its pieces. -/
theorem forall_mem_start_iff (path : String) :
    (∀ component ∈ start path, component.isNormal = true) ↔ start path = [] := by
  constructor
  · intro h
    rw [start] at h ⊢
    split at h
    · exact absurd (h _ List.mem_cons_self) Bool.false_ne_true
    · rename_i hrelative
      rw [if_neg hrelative]
      split at h
      · exact absurd (h _ List.mem_cons_self) Bool.false_ne_true
      · rename_i hdot
        rw [if_neg hdot]
  · intro h
    rw [h]
    exact List.forall_mem_nil _

/-- A path stays below the others when all its components are names. -/
theorem staysBelow_iff (path : String) :
    staysBelow path = true ↔ ∀ component ∈ parts path, component.isNormal = true := by
  rw [parts, List.forall_mem_append, forall_mem_start_iff, start_eq_nil_iff, staysBelow,
    Bool.and_eq_true, Bool.and_eq_true, Bool.not_eq_true', bne_iff_ne, Bool.not_eq_true']
  refine and_congr_right fun _ => ⟨fun h component hmem => ?_, fun h => ?_⟩
  · obtain ⟨piece, hpiece, hcomponent⟩ := List.mem_filterMap.mp hmem
    refine isNormal_of_component? ?_ hcomponent
    rintro rfl
    rw [List.contains_iff_mem.mpr hpiece] at h
    cases h
  · rw [← Bool.not_eq_true, List.contains_iff_mem]
    intro hmem
    have hparent := h .parent (List.mem_filterMap.mpr ⟨"..", hmem, rfl⟩)
    cases hparent

/-- A path that does not start at the root starts with what stands before its first slash. -/
theorem exists_piece_of_not_isAbsolute {path : String} (h : isAbsolute path = false)
    (hne : path ≠ "") : ∃ piece rest, pieces path = piece :: rest ∧ piece ≠ "" := by
  have hchars : path.toList ≠ [] := by simpa using hne
  obtain ⟨c, chars, hpath⟩ := List.exists_cons_of_ne_nil hchars
  have hc : c ≠ '/' := by
    rintro rfl
    rw [isAbsolute, hpath] at h
    cases h
  rw [pieces, hpath, splitOn, if_neg (by simpa using hc)]
  cases splitOn '/' chars with
  | nil => exact ⟨String.ofList [c], [], rfl, by simp⟩
  | cons piece rest => exact ⟨String.ofList (c :: piece), rest.map String.ofList, rfl, by simp⟩

/-- A path of names has at least one. -/
theorem exists_names_of_staysBelow {path : String} (h : staysBelow path = true) (hne : path ≠ "") :
    start path = [] ∧ ∃ name names, parts path = (name :: names).map .normal := by
  have hnormal := (staysBelow_iff path).mp h
  have hstart : start path = [] := by
    rw [parts, List.forall_mem_append] at hnormal
    exact (forall_mem_start_iff path).mp hnormal.1
  obtain ⟨hrelative, hdot⟩ := (start_eq_nil_iff path).mp hstart
  obtain ⟨piece, rest, hpieces, hpiece⟩ := exists_piece_of_not_isAbsolute hrelative hne
  obtain ⟨names, hnames⟩ := map_normal_of_isNormal hnormal
  refine ⟨hstart, ?_⟩
  -- the first piece is neither empty nor a dot, so it is a component
  have hfirst : component? piece ≠ none := by
    have hnotdot : piece ≠ "." := by
      rintro rfl
      exact hdot (by rw [hpieces]; rfl)
    rw [component?, if_neg (not_or.mpr ⟨hpiece, hnotdot⟩)]
    split <;> exact Option.some_ne_none _
  cases names with
  | nil =>
    rw [parts, hstart, hpieces, List.nil_append, List.map_nil, List.filterMap_eq_nil_iff] at hnames
    exact absurd (hnames piece List.mem_cons_self) hfirst
  | cons name names => exact ⟨name, names, hnames⟩

end Cattery.Path
