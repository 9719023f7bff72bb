/-
# ModuleBundler.Proofs.Path.Components — components of joined paths.

A text is cut at its slashes and joined again without loss (`pieces_append_slash`, `pieces_joined`).
What is joined to a directory depends on the components of the directory alone, not on how it is
spelled (`components_join_congr`); so the same file is meant from `/a`, from `/a/` and from `/a/.`.
Joining and removing points keep a path absolute.
-/
import ModuleBundler.Path

namespace ModuleBundler.Path

/-! ## Cutting at slashes -/

theorem pieces_slash (rest : List Char) : pieces ('/' :: rest) = [] :: pieces rest := by
  simp [pieces]

theorem pieces_of_slash_not_mem {piece : List Char} (h : '/' ∉ piece) : pieces piece = [piece] := by
  induction piece with
  | nil => rfl
  | cons c rest ih =>
    rw [List.mem_cons, not_or] at h
    rw [pieces, if_neg (Ne.symm h.1), ih h.2]

/-- A slash cuts a text into two that are cut apart from each other. -/
theorem pieces_append_slash (front back : List Char) :
    pieces (front ++ '/' :: back) = pieces front ++ pieces back := by
  induction front with
  | nil => exact pieces_slash back
  | cons c rest ih =>
    rw [List.cons_append, pieces, pieces]
    split
    · rw [ih, List.cons_append]
    · rw [ih]
      cases h : pieces rest with
      | nil => exact absurd h (pieces_ne_nil rest)
      | cons first others => rfl

theorem slash_not_mem_of_mem_pieces {text piece : List Char} (h : piece ∈ pieces text) :
    '/' ∉ piece := by
  induction text generalizing piece with
  | nil =>
    rw [pieces, List.mem_singleton] at h
    rw [h]
    exact List.not_mem_nil
  | cons c rest ih =>
    rw [pieces] at h
    split at h
    · rcases List.mem_cons.mp h with rfl | h
      · exact List.not_mem_nil
      · exact ih h
    · rename_i notSlash
      cases cut : pieces rest with
      | nil => exact absurd cut (pieces_ne_nil rest)
      | cons first others =>
        rw [cut] at h ih
        rcases List.mem_cons.mp h with rfl | h
        · rw [List.mem_cons, not_or]
          exact ⟨Ne.symm notSlash, ih List.mem_cons_self⟩
        · exact ih (List.mem_cons_of_mem first h)

/-- Cutting a text that was joined of pieces gives the pieces back. -/
theorem pieces_joined {parts : List (List Char)} (nonempty : parts ≠ [])
    (h : ∀ part ∈ parts, '/' ∉ part) : pieces (joined parts) = parts := by
  induction parts with
  | nil => exact absurd rfl nonempty
  | cons part others ih =>
    have cutFirst := pieces_of_slash_not_mem (h part List.mem_cons_self)
    cases others with
    | nil => exact cutFirst
    | cons second others =>
      show pieces (part ++ '/' :: joined (second :: others)) = _
      rw [pieces_append_slash, cutFirst,
        ih (List.cons_ne_nil _ _) fun other mem => h other (List.mem_cons_of_mem part mem)]
      rfl

/-! ## Components and spelling -/

theorem bodyComponents_append (front back : List (List Char)) :
    bodyComponents (front ++ back) = bodyComponents front ++ bodyComponents back := by
  rw [bodyComponents, List.filter_append, List.map_append]
  rfl

theorem isAbsolute_iff (path : Path) :
    path.isAbsolute = true ↔ ∃ rest, path.text.toList = '/' :: rest := by
  rw [isAbsolute, beq_iff_eq, List.head?_eq_some_iff]

/-- What stands behind a slash adds its components to those of what stands before. -/
theorem components_append_slash {path front : Path} {back : List Char}
    (h : path.text.toList = front.text.toList ++ '/' :: back) (nonempty : front.text ≠ "") :
    path.components = front.components ++ bodyComponents (pieces back) := by
  have sameRoot : path.isAbsolute = front.isAbsolute := by
    rw [isAbsolute, isAbsolute, h]
    cases text : front.text.toList with
    | nil => exact absurd (String.toList_eq_nil_iff.mp text) nonempty
    | cons c rest => rfl
  rw [components, components, h, pieces_append_slash, sameRoot]
  cases cut : pieces front.text.toList with
  | nil => exact absurd cut (pieces_ne_nil _)
  | cons first others =>
    simp only [List.cons_append]
    split
    · rw [bodyComponents_append, List.cons_append]
    · split
      · rw [bodyComponents_append, List.cons_append]
      · rw [← List.cons_append, bodyComponents_append]

/-- A slash at the end adds nothing. -/
theorem components_trailing_slash {path front : Path}
    (h : path.text.toList = front.text.toList ++ ['/']) (nonempty : front.text ≠ "") :
    path.components = front.components := by
  rw [components_append_slash h nonempty]
  exact List.append_nil _

/-- Only the empty text has no components. -/
theorem components_eq_nil_iff (path : Path) : path.components = [] ↔ path.text = "" := by
  constructor
  · intro h
    rw [components] at h
    cases cut : pieces path.text.toList with
    | nil => exact absurd cut (pieces_ne_nil _)
    | cons first others =>
      rw [cut] at h
      cases text : path.text.toList with
      | nil => exact String.toList_eq_nil_iff.mp text
      | cons c rest =>
        simp only [isAbsolute, text, List.head?_cons] at h
        by_cases isSlash : c = '/'
        · simp [isSlash] at h
        · -- the first piece begins with `c`, so it is idle only as a leading point
          obtain ⟨tail, rfl⟩ : ∃ tail, first = c :: tail := by
            rw [text, pieces, if_neg isSlash] at cut
            cases cutRest : pieces rest with
            | nil => exact absurd cutRest (pieces_ne_nil rest)
            | cons next more =>
              rw [cutRest] at cut
              exact ⟨next, (List.cons.inj cut).1.symm⟩
          by_cases isPoint : c = '.' ∧ tail = [] <;>
            simp [isSlash, isPoint, bodyComponents, isIdle] at h
  · intro h
    rw [components, isAbsolute, h]
    rfl

/-! ## Joining -/

theorem join_of_isAbsolute {path : Path} (base : Path) (h : path.isAbsolute = true) :
    base.join path = path := by
  rw [join, if_pos h]

/-- A relative path adds its components to those of the directory. -/
theorem components_join {base path : Path} (relative : path.isAbsolute = false)
    (nonempty : base.text ≠ "") :
    (base.join path).components =
      base.components ++ bodyComponents (pieces path.text.toList) := by
  have front : base.text.toList ≠ [] := fun h => nonempty (String.toList_eq_nil_iff.mp h)
  rw [join, relative, if_neg Bool.false_ne_true]
  simp only [List.isEmpty_iff, if_neg front]
  split
  · -- the directory ends in a slash, which joins the texts
    rename_i endsInSlash
    rw [beq_iff_eq, List.getLast?_eq_some_iff] at endsInSlash
    obtain ⟨shorter, spelled⟩ := endsInSlash
    have joinedText : (base.text ++ path.text).toList = shorter ++ '/' :: path.text.toList := by
      rw [String.toList_append, spelled, List.append_assoc]
      rfl
    by_cases isRoot : shorter = []
    · subst isRoot
      rw [components, components, isAbsolute, isAbsolute, joinedText, spelled]
      simp [pieces, bodyComponents, isIdle]
    · obtain ⟨directory, named⟩ : ∃ directory : Path, directory.text.toList = shorter :=
        ⟨⟨String.ofList shorter⟩, String.toList_ofList⟩
      have proper : directory.text ≠ "" := fun h => isRoot (by rw [← named, h]; rfl)
      rw [← named] at joinedText spelled
      have joinedParts : (⟨base.text ++ path.text⟩ : Path).components =
          directory.components ++ bodyComponents (pieces path.text.toList) :=
        components_append_slash joinedText proper
      rw [joinedParts, components_trailing_slash spelled proper]
  · exact components_append_slash
      (by rw [String.toList_append, String.toList_append, List.append_assoc]; rfl) nonempty

/-- What is joined to a directory does not depend on how the directory is spelled. -/
theorem components_join_congr {base other : Path} (path : Path)
    (h : base.components = other.components) :
    (base.join path).components = (other.join path).components := by
  by_cases absolute : path.isAbsolute = true
  · rw [join_of_isAbsolute base absolute, join_of_isAbsolute other absolute]
  · have relative : path.isAbsolute = false := Bool.eq_false_iff.mpr absolute
    by_cases empty : base.text = ""
    · have otherEmpty : other.text = "" := by
        rw [← components_eq_nil_iff, ← h, components_eq_nil_iff]
        exact empty
      rw [join, join, empty, otherEmpty]
    · have otherNonempty : other.text ≠ "" := by
        rw [Ne, ← components_eq_nil_iff, ← h, components_eq_nil_iff]
        exact empty
      rw [components_join relative empty, components_join relative otherNonempty, h]

/-- What a path means without points depends on its components alone. -/
theorem normalized_congr {path other : Path} (h : path.components = other.components) :
    path.normalized = other.normalized := by
  rw [normalized, normalized, h]

/-! ## Absolute paths -/

theorem isAbsolute_append {path : Path} (back : String) (h : path.isAbsolute = true) :
    (⟨path.text ++ back⟩ : Path).isAbsolute = true := by
  obtain ⟨rest, text⟩ := (isAbsolute_iff path).mp h
  rw [isAbsolute_iff]
  exact ⟨rest ++ back.toList, by rw [String.toList_append, text, List.cons_append]⟩

theorem isAbsolute_ofPieces (parts : List (List Char)) :
    (ofPieces true parts).isAbsolute = true := by
  rw [isAbsolute_iff]
  exact ⟨joined parts, String.toList_ofList⟩

theorem isAbsolute_join {base : Path} (path : Path) (h : base.isAbsolute = true) :
    (base.join path).isAbsolute = true := by
  rw [join]
  split
  · assumption
  · dsimp only
    split
    · -- the empty directory is not absolute
      rename_i empty
      obtain ⟨rest, text⟩ := (isAbsolute_iff base).mp h
      rw [List.isEmpty_iff, text] at empty
      exact absurd empty (List.cons_ne_nil _ _)
    · split
      · exact isAbsolute_append path.text h
      · exact isAbsolute_append path.text (isAbsolute_append "/" h)

theorem isAbsolute_parent {path parent : Path} (absolute : path.isAbsolute = true)
    (h : path.parent? = some parent) : parent.isAbsolute = true := by
  rw [parent?, absolute, Option.map_eq_some_iff] at h
  obtain ⟨parts, -, rfl⟩ := h
  exact isAbsolute_ofPieces parts

theorem components_of_isAbsolute {path : Path} (h : path.isAbsolute = true) :
    ∃ others, path.components = .root :: others := by
  cases cut : pieces path.text.toList with
  | nil => exact absurd cut (pieces_ne_nil _)
  | cons first others =>
    refine ⟨bodyComponents others, ?_⟩
    rw [components, cut, h]
    rfl

/-- The root stays at the bottom of a path that is kept without points. -/
theorem getLast?_collapseStep {stack : List Component} (component : Component)
    (h : stack.getLast? = some .root) : (collapseStep stack component).getLast? = some .root := by
  cases component with
  | here => exact h
  | root =>
    show (Component.root :: stack).getLast? = some .root
    rw [List.getLast?_cons, h]
    rfl
  | name text =>
    show (Component.name text :: stack).getLast? = some .root
    rw [List.getLast?_cons, h]
    rfl
  | up =>
    cases stack with
    | nil => exact absurd h (by simp)
    | cons top below =>
      cases below with
      | nil =>
        obtain rfl : top = .root := by simpa using h
        rfl
      | cons next below =>
        rw [List.getLast?_cons_cons] at h
        cases top <;> exact h

theorem getLast?_foldl_collapseStep (components : List Component) {stack : List Component}
    (h : stack.getLast? = some .root) :
    (components.foldl collapseStep stack).getLast? = some .root := by
  induction components generalizing stack with
  | nil => exact h
  | cons component others ih => exact ih (getLast?_collapseStep component h)

theorem isAbsolute_normalized {path : Path} (h : path.isAbsolute = true) :
    path.normalized.isAbsolute = true := by
  obtain ⟨others, spelled⟩ := components_of_isAbsolute h
  have bottom : (path.components.foldl collapseStep []).getLast? = some .root := by
    rw [spelled]
    exact getLast?_foldl_collapseStep others rfl
  obtain ⟨below, stack⟩ := List.getLast?_eq_some_iff.mp bottom
  rw [normalized, stack, List.reverse_append]
  exact isAbsolute_ofPieces _

end ModuleBundler.Path
