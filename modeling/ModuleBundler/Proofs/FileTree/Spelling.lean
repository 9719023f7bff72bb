/-
# ModuleBundler.Proofs.FileTree.Spelling — taking the paths of places apart.

What path operations do to the path of a place is said in terms of the place: the directory above
drops the last name (`parent?_pathOf`), what is left behind a directory are the names below it
(`relativeTo?_pathOf`), and joining adds names (`join_ofPieces`).  A path that is taken from a
directory by its text alone and never leads above some root ends below that root, wherever the root
is (`normalized_join`).
-/
import Mathlib.Algebra.Order.Ring.Int
import ModuleBundler.Proofs.FileTree.Canonical
import ModuleBundler.Resolver

namespace ModuleBundler

open ModuleBundler.Path (Component pieces joined isIdle trimEnd dropNames ofPieces bodyComponents)

/-! ## Names -/

theorem isName_iff {name : String} : IsName name ↔
    '/' ∉ name.toList ∧ isIdle name.toList = false ∧ name.toList ≠ ['.', '.'] :=
  ⟨fun h => ⟨h.noSlash, h.notIdle, h.notUp⟩, fun h => ⟨h.1, h.2.1, h.2.2⟩⟩

instance (name : String) : Decidable (IsName name) :=
  decidable_of_iff _ isName_iff.symm

theorem IsName.ne_nil {name : String} (h : IsName name) : name.toList ≠ [] := by
  intro empty
  have notIdle := h.notIdle
  rw [empty] at notIdle
  exact absurd notIdle (by decide)

theorem isIdle_iff {piece : List Char} : isIdle piece = true ↔ piece = [] ∨ piece = ['.'] := by
  simp [isIdle]

/-- A text without slashes that stands behind a name makes a longer name. -/
theorem IsName.append {name ext : String} (h : IsName name) (noSlash : '/' ∉ ext.toList) :
    IsName (name ++ ext) := by
  obtain ⟨c, rest, spelled⟩ := List.exists_cons_of_ne_nil h.ne_nil
  constructor
  · rw [String.toList_append, List.mem_append, not_or]
    exact ⟨h.noSlash, noSlash⟩
  · rw [Bool.eq_false_iff, Ne, isIdle_iff, String.toList_append, spelled]
    rintro (empty | point)
    · exact absurd empty (by simp)
    · -- a point alone would have been the name
      have first : c = '.' := (List.cons.inj point).1
      have alone : rest = [] := (List.append_eq_nil_iff.mp (List.cons.inj point).2).1
      have notIdle := h.notIdle
      rw [spelled, first, alone] at notIdle
      exact absurd notIdle (by decide)
  · rw [String.toList_append, spelled]
    intro points
    have first : c = '.' := (List.cons.inj points).1
    have second : rest ++ ext.toList = ['.'] := (List.cons.inj points).2
    cases rest with
    | nil =>
      have notIdle := h.notIdle
      rw [spelled, first] at notIdle
      exact absurd notIdle (by decide)
    | cons next more =>
      have next_eq : next = '.' := (List.cons.inj second).1
      have alone : more = [] := (List.append_eq_nil_iff.mp (List.cons.inj second).2).1
      apply h.notUp
      rw [spelled, first, next_eq, alone]

theorem isName_index {ext : String} (noSlash : '/' ∉ ext.toList) : IsName ("index" ++ ext) :=
  IsName.append ⟨by decide, by decide, by decide⟩ noSlash

theorem isName_concat {place : List String} {name : String} (named : ∀ other ∈ place, IsName other)
    (isName : IsName name) : ∀ other ∈ place ++ [name], IsName other := by
  intro other mem
  rcases List.mem_append.mp mem with mem | mem
  · exact named other mem
  · rw [List.mem_singleton.mp mem]
    exact isName

/-- The names of components are names. -/
theorem isName_of_mem_bodyComponents {text : List Char} {name : String}
    (h : .name name ∈ bodyComponents (pieces text)) : IsName name := by
  rw [bodyComponents, List.mem_map] at h
  obtain ⟨piece, kept, spelled⟩ := h
  obtain ⟨mem, notIdle⟩ := List.mem_filter.mp kept
  rw [Component.ofPiece] at spelled
  split at spelled
  · exact absurd spelled Component.noConfusion
  · rename_i notUp
    obtain rfl := Component.name.inj spelled
    constructor
    · rw [String.toList_ofList]
      exact Path.slash_not_mem_of_mem_pieces mem
    · rw [String.toList_ofList]
      simpa using notIdle
    · rw [String.toList_ofList]
      exact fun isUp => notUp (beq_iff_eq.mpr isUp)

/-! ## Pieces -/

namespace Path

theorem trimEnd_eq_self {parts : List (List Char)} (h : ∀ part ∈ parts, isIdle part = false) :
    trimEnd parts = parts := by
  rw [trimEnd]
  cases reversed : parts.reverse with
  | nil =>
    rw [List.reverse_eq_nil_iff.mp reversed]
    rfl
  | cons last others =>
    have mem : last ∈ parts := by
      rw [← List.mem_reverse, reversed]
      exact List.mem_cons_self
    rw [List.dropWhile_cons_of_neg (by rw [h last mem]; exact Bool.false_ne_true), ← reversed,
      List.reverse_reverse]

theorem dropNames_append {front : List (List Char)} (h : ∀ part ∈ front, isIdle part = false)
    (back : List (List Char)) : dropNames front.length (front ++ back) = back := by
  induction front with
  | nil => rw [List.length_nil, List.nil_append, dropNames]
  | cons part front ih =>
    rw [List.length_cons, List.cons_append, dropNames,
      if_neg (by rw [h part List.mem_cons_self]; exact Bool.false_ne_true)]
    exact ih fun other mem => h other (List.mem_cons_of_mem part mem)

theorem dropWhile_isIdle {parts : List (List Char)} (h : ∀ part ∈ parts, isIdle part = false) :
    parts.dropWhile isIdle = parts := by
  cases parts with
  | nil => rfl
  | cons part parts =>
    exact List.dropWhile_cons_of_neg (by rw [h part List.mem_cons_self]; exact Bool.false_ne_true)

theorem joined_append {front back : List (List Char)} (proper : front ≠ []) (proper' : back ≠ []) :
    joined (front ++ back) = joined front ++ '/' :: joined back := by
  induction front with
  | nil => exact absurd rfl proper
  | cons part front ih =>
    cases front with
    | nil =>
      obtain ⟨next, others, rfl⟩ := List.exists_cons_of_ne_nil proper'
      rfl
    | cons next front =>
      show part ++ '/' :: joined (next :: front ++ back) = (part ++ '/' :: joined (next :: front)) ++ _
      rw [ih (List.cons_ne_nil _ _), List.append_assoc, List.cons_append]

/-- What is written behind joined pieces is written behind the last of them. -/
theorem joined_concat_append (front : List (List Char)) (last behind : List Char) :
    joined (front ++ [last]) ++ behind = joined (front ++ [last ++ behind]) := by
  cases front with
  | nil => rfl
  | cons part front =>
    rw [joined_append (List.cons_ne_nil _ _) (List.cons_ne_nil _ _),
      joined_append (List.cons_ne_nil _ _) (List.cons_ne_nil _ _), List.append_assoc,
      List.cons_append]
    rfl

/-- Every piece takes its bytes and a slash. -/
theorem utf8ByteSize_joined {parts : List (List Char)} (proper : parts ≠ []) :
    (String.ofList (joined parts)).utf8ByteSize + 1 =
      (parts.map fun part => (String.ofList part).utf8ByteSize + 1).sum := by
  induction parts with
  | nil => exact absurd rfl proper
  | cons part others ih =>
    cases others with
    | nil => rw [List.map_singleton, List.sum_singleton, joined]
    | cons next others =>
      have spelled : String.ofList (joined (part :: next :: others)) =
          String.ofList part ++ ("/" ++ String.ofList (joined (next :: others))) := by
        rw [← String.toList_inj]
        simp [joined]
      have slash : "/".utf8ByteSize = 1 := by decide
      rw [List.map_cons, List.sum_cons, ← ih (List.cons_ne_nil _ _), spelled,
        String.utf8ByteSize_append, String.utf8ByteSize_append, slash]
      omega

theorem mem_joined_iff {parts : List (List Char)} {c : Char} (other : c ≠ '/') :
    c ∈ joined parts ↔ ∃ part ∈ parts, c ∈ part := by
  induction parts with
  | nil => simp [joined]
  | cons part others ih =>
    cases others with
    | nil => simp [joined]
    | cons next others =>
      show c ∈ part ++ '/' :: joined (next :: others) ↔ _
      rw [List.mem_append, List.mem_cons, ih]
      simp [other]
end Path

namespace FileTree

variable {place root : List String}

theorem not_isIdle_of_names (named : ∀ name ∈ place, IsName name) :
    ∀ part ∈ place.map String.toList, isIdle part = false := by
  intro part mem
  obtain ⟨name, isNamed, rfl⟩ := List.mem_map.mp mem
  exact (named name isNamed).notIdle

theorem components_pathOf_of_names (named : ∀ name ∈ place, IsName name) :
    (pathOf place).components = .root :: place.map .name := by
  by_cases isRoot : place = []
  · rw [isRoot]
    decide
  · exact components_pathOf named isRoot

theorem trimEnd_body_pathOf (named : ∀ name ∈ place, IsName name) :
    trimEnd (pathOf place).body = place.map String.toList := by
  by_cases isRoot : place = []
  · rw [isRoot]
    decide
  · rw [Path.body, isAbsolute_pathOf, pieces_pathOf named isRoot]
    exact Path.trimEnd_eq_self (not_isIdle_of_names named)

/-- The directory above a place. -/
theorem parent?_pathOf {name : String} (named : ∀ other ∈ place ++ [name], IsName other) :
    (pathOf (place ++ [name])).parent? = some (pathOf place) := by
  have trimmed := trimEnd_body_pathOf named
  have above : ∀ other ∈ place, IsName other := fun other mem =>
    named other (List.mem_append_left _ mem)
  have parts : Path.parentPieces? true (pathOf (place ++ [name])).body =
      some (place.map String.toList) := by
    rw [Path.parentPieces?, trimmed, List.map_append, List.map_singleton]
    obtain ⟨first, others, split⟩ := List.exists_cons_of_ne_nil
      (List.append_ne_nil_of_right_ne_nil (place.map String.toList) (List.cons_ne_nil name.toList []))
    rw [split]
    dsimp only
    rw [← split, List.dropLast_concat, Path.trimEnd_eq_self (not_isIdle_of_names above)]
    simp
  rw [Path.parent?, isAbsolute_pathOf, parts]
  rfl

theorem directoryOf_pathOf (proper : place ≠ []) (named : ∀ name ∈ place, IsName name) :
    Resolver.directoryOf (pathOf place) = pathOf place.dropLast := by
  obtain ⟨directory, name, rfl⟩ : ∃ directory name, place = directory ++ [name] :=
    ⟨place.dropLast, place.getLast proper, (List.dropLast_concat_getLast proper).symm⟩
  rw [Resolver.directoryOf, parent?_pathOf named, List.dropLast_concat]
  rfl

/-- Behind a directory, the path of a place below it has the names that lead down to the place. -/
theorem relativeTo?_pathOf {base : Path} (isBase : base.components = .root :: root.map .name)
    (named : ∀ name ∈ root ++ place, IsName name) :
    (pathOf (root ++ place)).relativeTo? base = some (ofPieces false (place.map String.toList)) := by
  have above := not_isIdle_of_names fun name mem => named name (List.mem_append_left place mem)
  have below := not_isIdle_of_names fun name mem => named name (List.mem_append_right root mem)
  have isPrefixOf : (Component.root :: root.map .name).isPrefixOf
      (Component.root :: (root ++ place).map .name) = true := by
    rw [List.isPrefixOf_iff_prefix, List.map_append]
    exact ⟨place.map .name, rfl⟩
  have dropped := Path.dropNames_append above (place.map String.toList)
  rw [List.length_map] at dropped
  rw [Path.relativeTo?, components_pathOf_of_names named, isBase, if_pos isPrefixOf]
  dsimp only
  rw [trimEnd_body_pathOf named, List.map_append, List.length_map, dropped,
    Path.dropWhile_isIdle below]

/-- Only the path of the root ends in a slash. -/
theorem getLast?_pathOf (named : ∀ name ∈ root, IsName name) (proper : root ≠ []) :
    (pathOf root).text.toList.getLast? ≠ some '/' := by
  intro ends
  obtain ⟨shorter, spelled⟩ := List.getLast?_eq_some_iff.mp ends
  have cut := pieces_pathOf named proper
  rw [spelled, Path.pieces_append_slash shorter []] at cut
  -- behind the slash the last name would be empty
  have last : (root.map String.toList).getLast? = some [] := by
    obtain ⟨first, others, rfl⟩ := List.exists_cons_of_ne_nil proper
    have same := congrArg List.getLast? cut
    rw [List.map_cons, List.getLast?_cons_cons] at same
    rw [List.map_cons, ← same]
    exact List.getLast?_concat
  have idle := not_isIdle_of_names named [] (List.mem_of_getLast? last)
  exact absurd idle (by decide)

/-- A path that begins with a name is relative. -/
theorem isAbsolute_of_names {path : Path} (spelled : path.text.toList = joined (place.map String.toList))
    (named : ∀ name ∈ place, IsName name) (proper : place ≠ []) : path.isAbsolute = false := by
  rw [Bool.eq_false_iff, Ne, Path.isAbsolute_iff]
  rintro ⟨rest, slash⟩
  -- a slash at the front would make the first name empty
  have idle : isIdle [] = false := by
    apply not_isIdle_of_names named
    rw [← Path.pieces_joined (fun empty => proper (List.map_eq_nil_iff.mp empty)) (fun part mem => ?_),
      ← spelled, slash, Path.pieces_slash]
    · exact List.mem_cons_self
    · obtain ⟨name, isNamed, rfl⟩ := List.mem_map.mp mem
      exact (named name isNamed).noSlash
  exact absurd idle (by decide)

/-- What is joined to the path of a place, if it is relative, is written behind it. -/
theorem join_pathOf_of_relative {path : Path}
    (spelled : path.text.toList = joined (place.map String.toList))
    (relative : path.isAbsolute = false) (above : ∀ name ∈ root, IsName name) (proper : place ≠ []) :
    (pathOf root).join path = pathOf (root ++ place) := by
  have nonempty : (pathOf root).text.toList.isEmpty = false := by
    rw [toList_pathOf]
    rfl
  have text : ∀ other : Path, other.text.toList = (pathOf (root ++ place)).text.toList →
      other = pathOf (root ++ place) := fun other same =>
    congrArg Path.mk (String.toList_inj.mp same)
  rw [Path.join, relative, if_neg Bool.false_ne_true]
  simp only [nonempty, if_neg Bool.false_ne_true]
  by_cases isRoot : root = []
  · subst isRoot
    rw [if_pos (by decide)]
    apply text
    rw [String.toList_append, spelled, toList_pathOf, toList_pathOf]
    rfl
  · rw [if_neg (fun ends => getLast?_pathOf above isRoot (beq_iff_eq.mp ends))]
    apply text
    rw [String.toList_append, String.toList_append, spelled, toList_pathOf, toList_pathOf,
      List.map_append, Path.joined_append (fun h => isRoot (List.map_eq_nil_iff.mp h))
        (fun h => proper (List.map_eq_nil_iff.mp h)), List.append_assoc, List.cons_append]
    rfl

/-- Names that are joined to the path of a place add to the place. -/
theorem join_pathOf {path : Path} (spelled : path.text.toList = joined (place.map String.toList))
    (named : ∀ name ∈ root ++ place, IsName name) (proper : place ≠ []) :
    (pathOf root).join path = pathOf (root ++ place) :=
  join_pathOf_of_relative spelled
    (isAbsolute_of_names spelled (fun name mem => named name (List.mem_append_right root mem)) proper)
    (fun name mem => named name (List.mem_append_left place mem)) proper

/-- What is written behind the path of a place is written behind the last name. -/
theorem append_pathOf (name ext : String) :
    (⟨(pathOf (place ++ [name])).text ++ ext⟩ : Path) = pathOf (place ++ [name ++ ext]) := by
  apply congrArg Path.mk
  apply String.toList_inj.mp
  rw [String.toList_append, toList_pathOf, String.toList_ofList, if_pos rfl, List.cons_append,
    List.map_append, List.map_append, List.map_singleton, List.map_singleton,
    Path.joined_concat_append, String.toList_append]

/-- The extension of a path is that of its last name. -/
theorem extension?_pathOf {name : String} (named : ∀ other ∈ place ++ [name], IsName other) :
    (pathOf (place ++ [name])).extension? =
      (Path.extensionOf? name.toList).map String.ofList := by
  have fileName : (pathOf (place ++ [name])).fileName? = some name := by
    rw [Path.fileName?, components_pathOf_of_names named, List.map_append, List.map_singleton,
      ← List.cons_append, List.getLast?_concat]
  rw [Path.extension?, fileName]

/-- A path can be opened if it has fewer than 4096 bytes, and none of its names has more than 255 or
an end of text. -/
theorem isNameable_pathOf_iff (named : ∀ name ∈ place, IsName name) (proper : place ≠ []) :
    isNameable (pathOf place) = true ↔ (place.map fun name => name.utf8ByteSize + 1).sum < 4096 ∧
      ∀ name ∈ place, '\x00' ∉ name.toList ∧ name.utf8ByteSize ≤ 255 := by
  have size : (pathOf place).text.utf8ByteSize = (place.map fun name => name.utf8ByteSize + 1).sum := by
    have spelled : (pathOf place).text = "/" ++ String.ofList (joined (place.map String.toList)) := by
      rw [← String.toList_inj, toList_pathOf]
      simp
    have slash : "/".utf8ByteSize = 1 := by decide
    have someParts : place.map String.toList ≠ [] := fun h => proper (List.map_eq_nil_iff.mp h)
    have parts := Path.utf8ByteSize_joined someParts
    rw [List.map_map] at parts
    rw [spelled, String.utf8ByteSize_append, slash, Nat.add_comm, parts]
    simp [Function.comp_def]
  have nonempty : (pathOf place).text.isEmpty = false := by
    rw [Bool.eq_false_iff, Ne, String.isEmpty_iff, ← String.toList_eq_nil_iff, toList_pathOf]
    exact List.cons_ne_nil _ _
  have zero : '\x00' ∈ (pathOf place).text.toList ↔ ∃ name ∈ place, '\x00' ∈ name.toList := by
    rw [toList_pathOf, List.mem_cons, Path.mem_joined_iff (by decide)]
    constructor
    · rintro (isSlash | ⟨part, mem, inside⟩)
      · exact absurd isSlash (by decide)
      · obtain ⟨name, isNamed, rfl⟩ := List.mem_map.mp mem
        exact ⟨name, isNamed, inside⟩
    · rintro ⟨name, isNamed, inside⟩
      exact .inr ⟨name.toList, List.mem_map_of_mem isNamed, inside⟩
  rw [isNameable, size, nonempty, pieces_pathOf named proper]
  simp only [Bool.not_false, Bool.and_true, List.contains_eq_mem, zero, List.all_cons,
    String.ofList_nil, String.utf8ByteSize_empty, Nat.zero_le, decide_true, List.all_map,
    Bool.true_and, Bool.and_eq_true, decide_eq_true_eq, Bool.not_eq_eq_eq_not, Bool.not_true,
    decide_eq_false_iff_not, not_exists, not_and, List.all_eq_true, Function.comp_apply,
    String.ofList_toList]
  constructor
  · rintro ⟨⟨short, noZero⟩, shortNames⟩
    exact ⟨short, fun name mem => ⟨noZero name mem, shortNames name mem⟩⟩
  · rintro ⟨short, names⟩
    exact ⟨⟨short, fun name mem => (names name mem).1⟩, fun name mem => (names name mem).2⟩
/-! ## Going down by the text alone -/

/-- The place below a root that components lead to from a place below it, taken by the text alone;
`none` if they lead above the root on the way. -/
def descend? : List String → List Component → Option (List String)
  | place, [] => some place
  | _, .root :: _ => none
  | place, .here :: rest => descend? place rest
  | place, .up :: rest => if place = [] then none else descend? place.dropLast rest
  | place, .name text :: rest => descend? (place ++ [text]) rest

/-- The components of a place above those of the root, as `collapseStep` keeps them. -/
def stackOf (place : List String) : List Component :=
  (Component.root :: place.map .name).reverse

/-- Going down by the text adds to the names below a root and never touches the root. -/
theorem collapse_descend? {components : List Component} {below : List String}
    (descends : descend? place components = some below) :
    components.foldl Path.collapseStep (stackOf (root ++ place)) = stackOf (root ++ below) := by
  induction components generalizing place with
  | nil =>
    obtain rfl := Option.some.inj descends
    rfl
  | cons component rest ih =>
    rw [List.foldl_cons]
    cases component with
    | root => exact absurd descends (by simp [descend?])
    | here => exact ih descends
    | name text =>
      have pushed : Path.collapseStep (stackOf (root ++ place)) (.name text) =
          stackOf (root ++ (place ++ [text])) := by
        show Component.name text :: stackOf (root ++ place) = _
        simp [stackOf]
      rw [pushed]
      exact ih descends
    | up =>
      rw [descend?] at descends
      split at descends
      · exact absurd descends (by simp)
      · rename_i proper
        obtain ⟨above, last, rfl⟩ : ∃ above last, place = above ++ [last] :=
          ⟨place.dropLast, place.getLast proper, (List.dropLast_concat_getLast proper).symm⟩
        rw [List.dropLast_concat] at descends
        have popped : Path.collapseStep (stackOf (root ++ (above ++ [last]))) .up =
            stackOf (root ++ above) := by
          simp [stackOf, Path.collapseStep]
        rw [popped]
        exact ih descends

theorem descend?_names (place below : List String) :
    descend? place (below.map .name) = some (place ++ below) := by
  induction below generalizing place with
  | nil => rw [List.map_nil, descend?, List.append_nil]
  | cons name below ih => rw [List.map_cons, descend?, ih, List.append_assoc, List.singleton_append]

theorem isName_of_descend? {components : List Component} {below : List String}
    (named : ∀ name ∈ place, IsName name) (spelled : ∀ name, .name name ∈ components → IsName name)
    (descends : descend? place components = some below) : ∀ name ∈ below, IsName name := by
  induction components generalizing place with
  | nil =>
    obtain rfl := Option.some.inj descends
    exact named
  | cons component rest ih =>
    have spelledRest : ∀ name, .name name ∈ rest → IsName name := fun name mem =>
      spelled name (List.mem_cons_of_mem _ mem)
    cases component with
    | root => exact absurd descends (by simp [descend?])
    | here => exact ih named spelledRest descends
    | name text =>
      exact ih (isName_concat named (spelled text List.mem_cons_self)) spelledRest descends
    | up =>
      rw [descend?] at descends
      split at descends
      · exact absurd descends (by simp)
      · exact ih (fun name mem => named name (List.dropLast_subset place mem)) spelledRest descends

/-- What stays below a root is relative, and a leading point leads nowhere. -/
theorem descend?_components {path : Path} {below : List String}
    (descends : descend? place path.components = some below) :
    path.isAbsolute = false ∧
      descend? place (bodyComponents (pieces path.text.toList)) = some below := by
  rw [Path.components] at descends
  cases cut : pieces path.text.toList with
  | nil => exact absurd cut (Path.pieces_ne_nil _)
  | cons first others =>
    rw [cut] at descends
    by_cases absolute : path.isAbsolute = true
    · simp [absolute, descend?] at descends
    · refine ⟨Bool.eq_false_iff.mpr absolute, ?_⟩
      dsimp only at descends
      rw [if_neg absolute] at descends
      split at descends
      · rename_i isPoint
        rw [beq_iff_eq.mp isPoint]
        exact descends
      · exact descends

/-- A path that is taken from a place below a root and stays below the root ends at the same place
below every root. -/
theorem normalized_join {path : Path} {below : List String}
    (named : ∀ name ∈ root ++ place, IsName name)
    (descends : descend? place path.components = some below) :
    ((pathOf (root ++ place)).join path).normalized = pathOf (root ++ below) := by
  obtain ⟨relative, descends⟩ := descend?_components descends
  have nonempty : (pathOf (root ++ place)).text ≠ "" := by
    intro empty
    have text := toList_pathOf (root ++ place)
    rw [empty] at text
    exact absurd text (by simp)
  have start : (Component.root :: (root ++ place).map .name).foldl Path.collapseStep [] =
      stackOf (root ++ place) :=
    @collapse_descend? [] [] ((root ++ place).map .name) (root ++ place) (descend?_names [] _)
  rw [Path.normalized, Path.components_join relative nonempty, components_pathOf_of_names named,
    List.foldl_append, start, collapse_descend? descends, stackOf, List.reverse_reverse]
  show ofPieces true (((root ++ below).map Component.name).map Component.text) = _
  rw [List.map_map]
  rfl

theorem isName_of_descend?_components {path : Path} {below : List String}
    (named : ∀ name ∈ place, IsName name)
    (descends : descend? place path.components = some below) : ∀ name ∈ below, IsName name :=
  isName_of_descend? named (fun _ => isName_of_mem_bodyComponents) (descend?_components descends).2

end FileTree

namespace ExtensionPolicy

open FileTree

/-- The places to try for a place below a root. -/
def places (policy : ExtensionPolicy) (below : List String) : List (List String) :=
  let named :=
    if (Path.extensionOf? (below.getLastD "").toList).isSome then [below]
    else policy.extensions.map fun ext => below.dropLast ++ [below.getLastD "" ++ ext]
  let indices :=
    if policy.indexFiles then policy.extensions.map fun ext => below ++ ["index" ++ ext] else []
  named ++ indices

variable {policy : ExtensionPolicy} {below root : List String}

/-- The candidates for the path of a place are the paths of the places to try. -/
theorem candidates_pathOf (noSlash : ∀ ext ∈ policy.extensions, '/' ∉ ext.toList)
    (named : ∀ name ∈ root ++ below, IsName name) (proper : below ≠ []) :
    policy.candidates (pathOf (root ++ below)) =
      (policy.places below).map fun place => pathOf (root ++ place) := by
  obtain ⟨above, last, rfl⟩ : ∃ above last, below = above ++ [last] :=
    ⟨below.dropLast, below.getLast proper, (List.dropLast_concat_getLast proper).symm⟩
  have lastName : (above ++ [last]).getLastD "" = last := by simp
  have indices : ∀ ext ∈ policy.extensions,
      (pathOf (root ++ (above ++ [last]))).join ⟨"index" ++ ext⟩ =
        pathOf (root ++ (above ++ [last] ++ ["index" ++ ext])) := by
    intro ext mem
    have spelledIndex : (⟨"index" ++ ext⟩ : Path).text.toList =
        joined (["index" ++ ext].map String.toList) := rfl
    rw [join_pathOf spelledIndex (isName_concat named (isName_index (noSlash ext mem)))
      (List.cons_ne_nil _ _), List.append_assoc]
  rw [candidates, places, lastName, List.dropLast_concat, List.map_append]
  congr 1
  · rw [← List.append_assoc, extension?_pathOf (by rwa [List.append_assoc]), Option.isSome_map]
    split
    · rw [List.map_singleton, List.append_assoc]
    · rw [List.map_map]
      refine List.map_congr_left fun ext _ => ?_
      rw [Function.comp_apply, ← List.append_assoc]
      exact append_pathOf last ext
  · split
    · rw [List.map_map]
      exact List.map_congr_left indices
    · rfl

theorem isName_of_mem_places (noSlash : ∀ ext ∈ policy.extensions, '/' ∉ ext.toList)
    (named : ∀ name ∈ below, IsName name) (proper : below ≠ []) {place : List String}
    (mem : place ∈ policy.places below) : place ≠ [] ∧ ∀ name ∈ place, IsName name := by
  obtain ⟨above, last, rfl⟩ : ∃ above last, below = above ++ [last] :=
    ⟨below.dropLast, below.getLast proper, (List.dropLast_concat_getLast proper).symm⟩
  have lastName : (above ++ [last]).getLastD "" = last := by simp
  rw [places, lastName, List.dropLast_concat] at mem
  rcases List.mem_append.mp mem with mem | mem
  · split at mem
    · rw [List.mem_singleton.mp mem]
      exact ⟨proper, named⟩
    · obtain ⟨ext, listed, rfl⟩ := List.mem_map.mp mem
      have above : ∀ name ∈ above, IsName name := fun name mem =>
        named name (List.mem_append_left _ mem)
      exact ⟨by simp, isName_concat above ((named last (by simp)).append (noSlash ext listed))⟩
  · split at mem
    · obtain ⟨ext, listed, rfl⟩ := List.mem_map.mp mem
      exact ⟨by simp, isName_concat named (isName_index (noSlash ext listed))⟩
    · exact absurd mem List.not_mem_nil

end ExtensionPolicy

end ModuleBundler
