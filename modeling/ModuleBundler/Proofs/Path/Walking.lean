/-
# ModuleBundler.Proofs.Path.Walking — where a path leads, by its components alone.

Walked from a directory, a path goes up some times and then down by names (`leads_eq_target`); an
absolute path starts at the root.  A path that is written without points goes down by the same names,
but of the steps up it keeps only whether their number is odd (`components_normalized`): what is
taken away by a step up may be an earlier step up.  So the path without points leads to the same
places as the path exactly if the path is absolute or goes up at most once
(`normalized_leads_iff`).
-/
import ModuleBundler.Proofs.FileTree.Spelling

namespace ModuleBundler.Path

open FileTree (pathOf)

/-! ## Walking by components -/

/-- The place that a component leads to from a place, by its text alone. -/
def Component.leads (place : List String) : Component → List String
  | .root => []
  | .here => place
  | .up => place.dropLast
  | .name text => place ++ [text]

/-- The place that a path leads to from a place, by its text alone. -/
def leads (path : Path) (place : List String) : List String :=
  path.components.foldl Component.leads place

/-- A way from a directory: some steps up, and then down by names. -/
structure Shift where
  ups : Nat
  names : List String
  deriving DecidableEq, Repr

namespace Shift

/-- The way that leads nowhere else. -/
def stay : Shift := ⟨0, []⟩

/-- A way with one more component. -/
def step (shift : Shift) : Component → Shift
  | .root => stay
  | .here => shift
  | .up => if shift.names = [] then ⟨shift.ups + 1, []⟩ else { shift with names := shift.names.dropLast }
  | .name text => { shift with names := shift.names ++ [text] }

/-- The place that a way ends at; there is nothing above the root. -/
def target (shift : Shift) (place : List String) : List String :=
  place.take (place.length - shift.ups) ++ shift.names

/-- The way with the steps up that a path without points keeps of it: one of an odd number, none of
an even one. -/
def kept (shift : Shift) : Shift :=
  { shift with ups := shift.ups % 2 }

/-- The components of a way. -/
def components (shift : Shift) : List Component :=
  List.replicate shift.ups .up ++ shift.names.map .name

theorem target_stay (place : List String) : stay.target place = place := by
  rw [target, stay, Nat.sub_zero, List.take_length, List.append_nil]

theorem target_step {shift : Shift} {component : Component} (below : component ≠ .root)
    (place : List String) :
    (shift.step component).target place = component.leads (shift.target place) := by
  cases component with
  | root => exact absurd rfl below
  | here => rfl
  | name text => exact (List.append_assoc _ _ _).symm
  | up =>
    rw [step]
    split
    · rename_i noNames
      have above : place.length - (shift.ups + 1) =
          min (min (place.length - shift.ups) place.length - 1) (place.length - shift.ups) := by
        omega
      rw [target, target, noNames, List.append_nil, List.append_nil, Component.leads,
        List.dropLast_eq_take, List.take_take, List.length_take, above]
    · rename_i someNames
      exact (List.dropLast_append_of_ne_nil someNames).symm

/-- The places of a walk that does not go through the root are those of its way. -/
theorem target_foldl {components : List Component}
    (below : ∀ component ∈ components, component ≠ .root) (shift : Shift) (place : List String) :
    (components.foldl step shift).target place =
      components.foldl Component.leads (shift.target place) := by
  induction components generalizing shift with
  | nil => rfl
  | cons component rest ih =>
    have others := fun other mem => below other (List.mem_cons_of_mem component mem)
    rw [List.foldl_cons, List.foldl_cons, ih others, target_step (below component List.mem_cons_self)]

/-- A way whose steps up are counted by twos is collapsed by the next component to the next way. -/
theorem collapseStep_kept {shift : Shift} {component : Component} (below : component ≠ .root)
    {base : List Component} (isBase : base = [] ∨ base = [.root]) :
    collapseStep (shift.kept.components.reverse ++ base) component =
      (shift.step component).kept.components.reverse ++ base := by
  cases component with
  | root => exact absurd rfl below
  | here => rfl
  | name text => simp [kept, components, step, collapseStep]
  | up =>
    rw [step]
    split
    · -- the step up is kept behind an even number of them, and takes the kept one away else
      rename_i noNames
      rcases Nat.mod_two_eq_zero_or_one shift.ups with even | odd
      · have next : (shift.ups + 1) % 2 = 1 := by omega
        rcases isBase with rfl | rfl <;> simp [kept, components, noNames, even, next, collapseStep]
      · have next : (shift.ups + 1) % 2 = 0 := by omega
        rcases isBase with rfl | rfl <;> simp [kept, components, noNames, odd, next, collapseStep]
    · rename_i someNames
      obtain ⟨above, last, split⟩ : ∃ above last, shift.names = above ++ [last] :=
        ⟨_, _, (List.dropLast_concat_getLast someNames).symm⟩
      simp [kept, components, split, collapseStep]

theorem foldl_collapseStep {components : List Component}
    (below : ∀ component ∈ components, component ≠ .root) (shift : Shift) {base : List Component}
    (isBase : base = [] ∨ base = [.root]) :
    components.foldl collapseStep (shift.kept.components.reverse ++ base) =
      (components.foldl step shift).kept.components.reverse ++ base := by
  induction components generalizing shift with
  | nil => rfl
  | cons component rest ih =>
    rw [List.foldl_cons, List.foldl_cons,
      collapseStep_kept (below component List.mem_cons_self) isBase,
      ih fun other mem => below other (List.mem_cons_of_mem _ mem)]

/-- The names of a way are those of its components. -/
theorem isName_foldl {components : List Component} {shift : Shift}
    (named : ∀ name ∈ shift.names, IsName name)
    (spelled : ∀ name, .name name ∈ components → IsName name) :
    ∀ name ∈ (components.foldl step shift).names, IsName name := by
  induction components generalizing shift with
  | nil => exact named
  | cons component rest ih =>
    refine ih (fun name mem => ?_) fun name mem => spelled name (List.mem_cons_of_mem _ mem)
    cases component with
    | root => exact absurd mem List.not_mem_nil
    | here => exact named name mem
    | name text => exact isName_concat named (spelled text List.mem_cons_self) name mem
    | up =>
      rw [step] at mem
      split at mem
      · exact absurd mem List.not_mem_nil
      · exact named name (List.dropLast_subset _ mem)

end Shift

/-! ## The components of a path -/

/-- What stands in front of the components that have a piece of their own behind the first. -/
def lead (path : Path) : List Component :=
  if path.isAbsolute then [.root]
  else if (pieces path.text.toList).head? == some ['.'] then [.here]
  else []

/-- The components of a path besides the root and a leading point. -/
def moves (path : Path) : List Component :=
  bodyComponents (pieces path.text.toList)

theorem components_eq_lead_append (path : Path) : path.components = path.lead ++ path.moves := by
  rw [components, lead, moves]
  cases cut : pieces path.text.toList with
  | nil => exact absurd cut (pieces_ne_nil _)
  | cons first others =>
    by_cases absolute : path.isAbsolute = true
    · obtain ⟨rest, text⟩ := (isAbsolute_iff path).mp absolute
      rw [text, pieces_slash] at cut
      obtain ⟨rfl, -⟩ := List.cons.inj cut
      rw [if_pos absolute]
      simp only [if_pos absolute]
      rfl
    · simp only [if_neg absolute]
      by_cases isPoint : first = ['.']
      · rw [isPoint]
        rfl
      · have notPoint : ¬ (first == ['.']) = true := fun h => isPoint (beq_iff_eq.mp h)
        rw [if_neg notPoint, if_neg (by rwa [List.head?_cons, Option.some_beq_some]), List.nil_append]

/-- The way of a path: from the root if it is absolute. -/
def shift (path : Path) : Shift :=
  path.moves.foldl Shift.step .stay

theorem ne_root_of_mem_moves {path : Path} {component : Component} (mem : component ∈ path.moves) :
    component ≠ .root := by
  rintro rfl
  obtain ⟨piece, -, spelled⟩ := List.mem_map.mp mem
  rw [Component.ofPiece] at spelled
  split at spelled <;> exact absurd spelled Component.noConfusion

theorem isName_shift (path : Path) : ∀ name ∈ path.shift.names, IsName name :=
  Shift.isName_foldl (fun _ mem => absurd mem List.not_mem_nil)
    fun _ => isName_of_mem_bodyComponents

/-- A path leads along its way. -/
theorem leads_eq_target (path : Path) (place : List String) :
    path.leads place = path.shift.target (if path.isAbsolute then [] else place) := by
  have start : path.lead.foldl Component.leads place = if path.isAbsolute then [] else place := by
    rw [lead]
    split
    · rfl
    · split <;> rfl
  rw [leads, components_eq_lead_append, List.foldl_append, start, shift,
    Shift.target_foldl (fun _ => ne_root_of_mem_moves), Shift.target_stay]

/-! ## Without points -/

theorem ofComponents_of_ne_root {components : List Component}
    (below : ∀ component ∈ components, component ≠ .root) :
    ofComponents components = ofPieces false (components.map Component.text) := by
  cases components with
  | nil => rfl
  | cons component rest =>
    cases component with
    | root => exact absurd rfl (below .root List.mem_cons_self)
    | _ => rfl

/-- A step up, or a name that a path can spell. -/
def Component.IsMove (component : Component) : Prop :=
  component = .up ∨ ∃ name, IsName name ∧ component = .name name

theorem Shift.isMove_of_mem_components {shift : Shift} (named : ∀ name ∈ shift.names, IsName name)
    {component : Component} (mem : component ∈ shift.components) : component.IsMove := by
  rcases List.mem_append.mp mem with isUp | isName
  · exact .inl (List.eq_of_mem_replicate isUp)
  · obtain ⟨name, listed, rfl⟩ := List.mem_map.mp isName
    exact .inr ⟨name, named name listed, rfl⟩

theorem Component.IsMove.noSlash {component : Component} (h : component.IsMove) :
    '/' ∉ component.text := by
  obtain rfl | ⟨name, isName, rfl⟩ := h
  · decide
  · exact isName.noSlash

theorem Component.IsMove.text_ne_nil {component : Component} (h : component.IsMove) :
    component.text ≠ [] := by
  obtain rfl | ⟨name, isName, rfl⟩ := h
  · exact List.cons_ne_nil _ _
  · exact isName.ne_nil

/-- Components that are written one after another are read again. -/
theorem bodyComponents_text {components : List Component}
    (spelled : ∀ component ∈ components, component.IsMove) :
    bodyComponents (components.map Component.text) = components := by
  induction components with
  | nil => rfl
  | cons component rest ih =>
    have others := ih fun other mem => spelled other (List.mem_cons_of_mem _ mem)
    rw [bodyComponents] at others ⊢
    obtain rfl | ⟨name, isName, rfl⟩ := spelled component List.mem_cons_self
    · exact congrArg (Component.up :: ·) others
    · rw [List.map_cons, Component.text, List.filter_cons_of_pos (by rw [isName.notIdle]; rfl),
        List.map_cons, others, Component.ofPiece,
        if_neg (fun isUp => isName.notUp (beq_iff_eq.mp isUp)), String.ofList_toList]

theorem moves_ofPieces {parts : List (List Char)} (isAbsolute : Bool)
    (noSlash : ∀ part ∈ parts, '/' ∉ part) :
    (ofPieces isAbsolute parts).moves = bodyComponents parts := by
  have cut : bodyComponents (pieces (joined parts)) = bodyComponents parts := by
    by_cases empty : parts = []
    · rw [empty]
      rfl
    · rw [pieces_joined empty noSlash]
  rw [moves, ofPieces, String.toList_ofList]
  cases isAbsolute with
  | true => rwa [if_pos rfl, pieces_slash]
  | false => exact cut

theorem isAbsolute_ofPieces_eq {components : List Component} (isAbsolute : Bool)
    (spelled : ∀ component ∈ components, component.IsMove) :
    (ofPieces isAbsolute (components.map Component.text)).isAbsolute = isAbsolute := by
  cases isAbsolute with
  | true => exact isAbsolute_ofPieces _
  | false =>
    cases components with
    | nil => rfl
    | cons component rest =>
      -- a relative path starts with its first component, which does not start with a slash
      have isMove := spelled component List.mem_cons_self
      obtain ⟨c, more, text⟩ := List.exists_cons_of_ne_nil isMove.text_ne_nil
      have notSlash : c ≠ '/' := by
        rintro rfl
        exact isMove.noSlash (text ▸ List.mem_cons_self)
      cases rest <;> simp [ofPieces, joined, Path.isAbsolute, text, notSlash]

theorem isMove_kept {path : Path} {component : Component}
    (mem : component ∈ path.shift.kept.components) : component.IsMove :=
  @Shift.isMove_of_mem_components path.shift.kept (isName_shift path) component mem

/-- Without points a path has the components of the way that is kept of it. -/
theorem normalized_eq (path : Path) : path.normalized =
    ofPieces path.isAbsolute (path.shift.kept.components.map Component.text) := by
  have collapsed {base : List Component} (isBase : base = [] ∨ base = [.root]) :
      (path.moves.foldl collapseStep base).reverse =
        base.reverse ++ path.shift.kept.components := by
    have run := Shift.foldl_collapseStep (fun _ => @ne_root_of_mem_moves path _) .stay isBase
    rw [show Shift.stay.kept.components.reverse ++ base = base from rfl] at run
    rw [run, List.reverse_append, List.reverse_reverse]
    rfl
  rw [normalized, components_eq_lead_append, List.foldl_append]
  by_cases absolute : path.isAbsolute = true
  · have start : path.lead.foldl collapseStep [] = [.root] := by
      rw [lead, if_pos absolute]
      rfl
    rw [start, collapsed (.inr rfl), absolute]
    rfl
  · have start : path.lead.foldl collapseStep [] = [] := by
      rw [lead, if_neg absolute]
      split <;> rfl
    rw [start, collapsed (.inl rfl), List.reverse_nil, List.nil_append,
      Bool.eq_false_iff.mpr absolute]
    refine ofComponents_of_ne_root fun component mem => ?_
    obtain rfl | ⟨name, -, rfl⟩ := isMove_kept mem <;> exact Component.noConfusion

theorem isAbsolute_normalized_eq (path : Path) : path.normalized.isAbsolute = path.isAbsolute := by
  rw [normalized_eq, isAbsolute_ofPieces_eq _ fun _ => isMove_kept]

theorem Shift.foldl_ups (ups : Nat) (start : Nat) :
    (List.replicate ups Component.up).foldl step ⟨start, []⟩ = ⟨start + ups, []⟩ := by
  induction ups generalizing start with
  | zero => rfl
  | succ ups ih =>
    rw [List.replicate_succ, List.foldl_cons]
    exact (ih (start + 1)).trans (by rw [Nat.add_assoc, Nat.add_comm 1])

theorem Shift.foldl_names (shift : Shift) (names : List String) :
    (names.map Component.name).foldl step shift = { shift with names := shift.names ++ names } := by
  induction names generalizing shift with
  | nil => rw [List.append_nil]; rfl
  | cons name names ih => rw [List.map_cons, List.foldl_cons, ih, step, List.append_assoc]; rfl

/-- The way of a path without points is what is kept of the way of the path. -/
theorem shift_normalized (path : Path) : path.normalized.shift = path.shift.kept := by
  have noSlash : ∀ part ∈ path.shift.kept.components.map Component.text, '/' ∉ part := by
    intro part mem
    obtain ⟨component, listed, rfl⟩ := List.mem_map.mp mem
    exact (isMove_kept listed).noSlash
  rw [shift, normalized_eq, moves_ofPieces _ noSlash, bodyComponents_text fun _ => isMove_kept,
    Shift.components, List.foldl_append, Shift.stay, Shift.foldl_ups, Shift.foldl_names,
    Nat.zero_add, List.nil_append]

/-- Where a path without points leads. -/
theorem leads_normalized (path : Path) (place : List String) :
    path.normalized.leads place = path.shift.kept.target (if path.isAbsolute then [] else place) := by
  rw [leads_eq_target, shift_normalized, isAbsolute_normalized_eq]

/-- From deep enough, other numbers of steps up lead elsewhere. -/
theorem Shift.target_kept_iff (shift : Shift) :
    (∀ place : List String, (∀ name ∈ place, IsName name) →
      shift.kept.target place = shift.target place) ↔ shift.ups ≤ 1 := by
  constructor
  · intro same
    have deep : ∀ name ∈ List.replicate shift.ups "d", IsName name := fun name mem => by
      rw [List.eq_of_mem_replicate mem]
      decide
    have length := congrArg List.length (same _ deep)
    simp only [target, kept, List.length_append, List.length_take, List.length_replicate] at length
    omega
  · intro few place _
    have once : shift.ups % 2 = shift.ups := Nat.mod_eq_of_lt (by omega)
    rw [kept, once]

theorem leads_normalized_eq_iff (path : Path) :
    (∀ place : List String, (∀ name ∈ place, IsName name) →
      path.normalized.leads place = path.leads place) ↔
        path.isAbsolute = true ∨ path.shift.ups ≤ 1 := by
  by_cases absolute : path.isAbsolute = true
  · refine ⟨fun _ => .inl absolute, fun _ place _ => ?_⟩
    rw [leads_normalized, leads_eq_target, if_pos absolute, Shift.target, Shift.target,
      List.take_nil, List.take_nil, Shift.kept]
  · rw [or_iff_right absolute, ← Shift.target_kept_iff]
    refine forall_congr' fun place => imp_congr_right fun _ => ?_
    rw [leads_normalized, leads_eq_target, if_neg absolute]

/-! ## Joining -/

/-- A joined path leads to where the path leads from the directory. -/
theorem leads_join (base path : Path) (place : List String) :
    (base.join path).leads place = path.leads (base.leads place) := by
  by_cases absolute : path.isAbsolute = true
  · rw [join_of_isAbsolute base absolute, leads_eq_target, leads_eq_target, if_pos absolute,
      if_pos absolute]
  · have relative : path.isAbsolute = false := Bool.eq_false_iff.mpr absolute
    by_cases empty : base.text = ""
    · have here : base.leads place = place := by
        rw [leads, (components_eq_nil_iff base).mpr empty, List.foldl_nil]
      have joined : base.join path = path := by
        rw [join, if_neg absolute, empty]
        rfl
      rw [here, joined]
    · have start : path.lead.foldl Component.leads (base.leads place) = base.leads place := by
        rw [lead, if_neg absolute]
        split <;> rfl
      have onward : path.leads (base.leads place) =
          path.moves.foldl Component.leads (base.leads place) := by
        rw [leads, components_eq_lead_append, List.foldl_append, start]
      rw [leads, components_join relative empty, List.foldl_append, onward]
      rfl

/-- A path without points leads to the same places as the path exactly if it is absolute or goes up
at most once; else it goes up once if it went up an odd number of times, and not at all if it went
up an even number of times.  So what a module names is looked for where the specifier leads from the
directory of the module, if the two together are absolute or go up at most once. -/
theorem normalized_leads_iff (path importer : Path) (specifier : String) :
    ((∀ place : List String, (∀ name ∈ place, IsName name) →
        path.normalized.leads place = path.leads place) ↔
      path.isAbsolute = true ∨ path.shift.ups ≤ 1) ∧
    path.normalized.isAbsolute = path.isAbsolute ∧
    path.normalized.shift = { path.shift with ups := path.shift.ups % 2 } ∧
    let joined := (Resolver.directoryOf importer).join ⟨specifier⟩
    ((∀ place : List String, (∀ name ∈ place, IsName name) →
        joined.normalized.leads place =
          (⟨specifier⟩ : Path).leads ((Resolver.directoryOf importer).leads place)) ↔
      joined.isAbsolute = true ∨ joined.shift.ups ≤ 1) := by
  refine ⟨leads_normalized_eq_iff path, isAbsolute_normalized_eq path, shift_normalized path, ?_⟩
  have fromDirectory := leads_normalized_eq_iff ((Resolver.directoryOf importer).join ⟨specifier⟩)
  simp only [leads_join] at fromDirectory
  exact fromDirectory

/-- A file beside a module that is named as if it stood two directories above. -/
def besideModule : FileTree :=
  ⟨[(["r"], .directory), (["r", "x.js"], .file ⟨#[]⟩)], ["r"]⟩

/-- Two steps up are lost: a relative path that goes up twice leads beside the module, and what
stands there is taken for the file that is named. -/
theorem normalized_loses_ups :
    (⟨"../../x"⟩ : Path).leads ["d", "e"] = ["x"] ∧
    (⟨"../../x"⟩ : Path).normalized = ⟨"x"⟩ ∧
    (⟨"../../x"⟩ : Path).normalized.leads ["d", "e"] = ["d", "e", "x"] ∧
    (Resolver.resolve besideModule (.new .standard) "../../x" ⟨"main.js"⟩).1 =
      .ok ⟨"/r/x.js"⟩ := by
  decide

end ModuleBundler.Path
