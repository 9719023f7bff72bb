/-
# ModuleBundler.Proofs.Resolver.Memory — a memory that changes no answer.

While the files stay as they are, a resolver answers every question as it did at first, whatever it
has been asked meanwhile (`agrees_resolveFrom`): what it remembers for a directory it would find
again, also from the same directory in another spelling.  A new resolver that is asked from an
absolute directory answers with canonical paths of files (`isCanonicalFile_of_new`), and every
answer is one of finitely many paths (`answer_mem_sources`).
-/
import ModuleBundler.Resolver
import ModuleBundler.Proofs.FileTree.Canonical

namespace ModuleBundler

namespace ExtensionPolicy

theorem isAbsolute_of_mem_candidates {policy : ExtensionPolicy} {path candidate : Path}
    (absolute : path.isAbsolute = true) (h : candidate ∈ policy.candidates path) :
    candidate.isAbsolute = true := by
  rw [candidates] at h
  rcases List.mem_append.mp h with h | h
  · split at h
    · rw [List.mem_singleton.mp h]
      exact absolute
    · obtain ⟨ext, -, rfl⟩ := List.mem_map.mp h
      exact Path.isAbsolute_append ext absolute
  · split at h
    · obtain ⟨ext, -, rfl⟩ := List.mem_map.mp h
      exact Path.isAbsolute_join _ absolute
    · exact absurd h List.not_mem_nil

end ExtensionPolicy

namespace Resolver

/-! ## Looking for a file -/

/-- The candidates do not depend on how the directory is spelled. -/
theorem candidates_congr (policy : ExtensionPolicy) {directory other : Path} (specifier : String)
    (h : directory.same other = true) :
    candidates policy directory specifier = candidates policy other specifier := by
  rw [Path.same_iff] at h
  rw [candidates, candidates, Path.normalized_congr (Path.components_join_congr ⟨specifier⟩ h)]

/-- The file that a search ends with is its first candidate that is a file. -/
theorem search_eq_ok_iff {tree : FileTree} {policy : ExtensionPolicy} {directory path : Path}
    {specifier : String} {importer : Option Path} :
    search tree policy directory specifier importer = .ok path ↔
      ∃ candidate, (candidates policy directory specifier).find? tree.isFile = some candidate ∧
        tree.canonical? candidate = some path := by
  unfold search
  generalize candidates policy directory specifier = tried
  dsimp only
  cases found : tried.find? tree.isFile with
  | none => simp only [reduceCtorEq, false_and, exists_false]
  | some candidate =>
    cases named : tree.canonical? candidate with
    | none => simp only [named, Option.some.injEq, exists_eq_left', reduceCtorEq]
    | some canonical => simp only [named, Option.some.injEq, exists_eq_left', Except.ok.injEq]

theorem search_of_unfound {tree : FileTree} {policy : ExtensionPolicy} {directory : Path}
    {specifier : String} (importer : Option Path)
    (unfound : (candidates policy directory specifier).find? tree.isFile = none) :
    search tree policy directory specifier importer =
      .error (.resolution specifier importer
        (.noSuchFile (candidates policy directory specifier))) := by
  unfold search
  generalize candidates policy directory specifier = tried at unfound ⊢
  dsimp only
  rw [unfound]

/-- A search fails with the specifier and the importer that it was asked for. -/
theorem search_error {tree : FileTree} {policy : ExtensionPolicy} {directory : Path}
    {specifier : String} {importer : Option Path} {error : BuildError}
    (h : search tree policy directory specifier importer = .error error) :
    ∃ fault, error = .resolution specifier importer fault := by
  unfold search at h
  generalize candidates policy directory specifier = tried at h
  dsimp only at h
  cases found : tried.find? tree.isFile with
  | none =>
    rw [found] at h
    exact ⟨_, (Except.error.inj h).symm⟩
  | some candidate =>
    rw [found] at h
    cases named : tree.canonical? candidate with
    | none =>
      simp only [named] at h
      exact ⟨_, (Except.error.inj h).symm⟩
    | some canonical =>
      simp only [named, reduceCtorEq] at h

theorem isCanonicalFile_of_search {tree : FileTree} {policy : ExtensionPolicy}
    {directory path : Path} {specifier : String} {importer : Option Path}
    (absolute : directory.isAbsolute = true)
    (h : search tree policy directory specifier importer = .ok path) :
    tree.IsCanonicalFile path := by
  obtain ⟨candidate, found, named⟩ := search_eq_ok_iff.mp h
  have reached : candidate.isAbsolute = true :=
    ExtensionPolicy.isAbsolute_of_mem_candidates
      (Path.isAbsolute_normalized (Path.isAbsolute_join _ absolute))
      (List.mem_of_find?_eq_some found)
  exact FileTree.isCanonicalFile_of_canonical? reached (List.find?_some found) named

/-! ## Answers -/

/-- What a resolver answers to a question is found by a search, or was found before. -/
theorem answer_eq (tree : FileTree) (resolver : Resolver) (directory : Path) (specifier : String)
    (importer : Option Path) :
    (resolver.resolveFrom tree directory specifier importer).1 =
      match resolver.remembered? directory specifier with
      | some path => .ok path
      | none => search tree resolver.policy directory specifier importer := by
  rw [resolveFrom]
  cases resolver.remembered? directory specifier with
  | some path => rfl
  | none =>
    dsimp only
    cases search tree resolver.policy directory specifier importer with
    | ok path => rfl
    | error error => rfl

/-- A failed answer names the specifier and the importer. -/
theorem answer_error {tree : FileTree} {resolver : Resolver} {directory : Path}
    {specifier : String} {importer : Option Path} {error : BuildError}
    (h : (resolver.resolveFrom tree directory specifier importer).1 = .error error) :
    ∃ fault, error = .resolution specifier importer fault := by
  rw [answer_eq] at h
  cases remembered : resolver.remembered? directory specifier with
  | some path =>
    simp only [remembered, reduceCtorEq] at h
  | none =>
    rw [remembered] at h
    exact search_error h

theorem remembered?_new (policy : ExtensionPolicy) (directory : Path) (specifier : String) :
    (new policy).remembered? directory specifier = none := rfl

theorem isAbsolute_directoryOf {importer : Path} (absolute : importer.isAbsolute = true) :
    (directoryOf importer).isAbsolute = true := by
  rw [directoryOf]
  cases above : importer.parent? with
  | none => rfl
  | some parent => exact Path.isAbsolute_parent absolute above

/-- A new resolver that is asked from an absolute directory answers with canonical paths. -/
theorem isCanonicalFile_of_new {tree : FileTree} {policy : ExtensionPolicy}
    {directory path : Path} {specifier : String} {importer : Option Path}
    (absolute : directory.isAbsolute = true)
    (h : ((new policy).resolveFrom tree directory specifier importer).1 = .ok path) :
    tree.IsCanonicalFile path := by
  rw [answer_eq, remembered?_new] at h
  exact isCanonicalFile_of_search absolute h

/-- The paths that a resolver can answer with: those of the files, and those it remembers. -/
def sources (tree : FileTree) (resolver : Resolver) : List Path :=
  (tree.entries.map fun entry => FileTree.pathOf entry.1) ++ resolver.found.map (·.path)

theorem length_sources (tree : FileTree) (resolver : Resolver) :
    (resolver.sources tree).length = tree.entries.length + resolver.found.length := by
  rw [sources, List.length_append, List.length_map, List.length_map]

theorem answer_mem_sources {tree : FileTree} {resolver : Resolver} {directory path : Path}
    {specifier : String} {importer : Option Path}
    (h : (resolver.resolveFrom tree directory specifier importer).1 = .ok path) :
    path ∈ resolver.sources tree := by
  rw [answer_eq] at h
  cases remembered : resolver.remembered? directory specifier with
  | some found =>
    rw [remembered] at h
    obtain rfl := Except.ok.inj h
    rw [remembered?, Option.map_eq_some_iff] at remembered
    obtain ⟨entry, found, rfl⟩ := remembered
    exact List.mem_append_right _ (List.mem_map_of_mem (List.mem_of_find?_eq_some found))
  | none =>
    rw [remembered] at h
    obtain ⟨candidate, found, named⟩ := search_eq_ok_iff.mp h
    obtain ⟨place, content, -, rfl, isFile, -⟩ :=
      FileTree.place_of_canonical? (List.find?_some found) named
    exact List.mem_append_left _ (FileTree.pathOf_mem_entries isFile)

/-! ## The memory -/

/-- Both resolvers answer every question alike. -/
def Agrees (tree : FileTree) (resolver other : Resolver) : Prop :=
  ∀ directory specifier importer,
    (other.resolveFrom tree directory specifier importer).1 =
      (resolver.resolveFrom tree directory specifier importer).1

theorem Agrees.refl (tree : FileTree) (resolver : Resolver) : Agrees tree resolver resolver :=
  fun _ _ _ => rfl

theorem Agrees.trans {tree : FileTree} {first second third : Resolver}
    (h : Agrees tree first second) (h' : Agrees tree second third) : Agrees tree first third :=
  fun directory specifier importer =>
    (h' directory specifier importer).trans (h directory specifier importer)

theorem remembered?_congr (resolver : Resolver) {directory other : Path} (specifier : String)
    (h : directory.same other = true) :
    resolver.remembered? directory specifier = resolver.remembered? other specifier := by
  have sameTest : ∀ entry : Found, entry.directory.same directory = entry.directory.same other := by
    intro entry
    rw [Path.same_iff] at h
    rw [Path.same, Path.same, h]
  rw [remembered?, remembered?]
  congr 2
  funext entry
  rw [sameTest]

/-- Remembering an answer changes what is remembered for its own question alone, in any spelling
of the directory. -/
theorem remembered?_cons (resolver : Resolver) (entry : Found) (directory : Path)
    (specifier : String) :
    ({ resolver with found := entry :: resolver.found } : Resolver).remembered? directory
        specifier =
      if entry.specifier = specifier ∧ entry.directory.same directory = true then some entry.path
      else resolver.remembered? directory specifier := by
  rw [remembered?, List.find?_cons]
  split
  · rename_i isAsked
    rw [Bool.and_eq_true, beq_iff_eq] at isAsked
    rw [if_pos isAsked]
    rfl
  · rename_i notAsked
    rw [Bool.and_eq_false_iff, beq_eq_false_iff_ne] at notAsked
    rw [if_neg]
    · rfl
    · rintro ⟨sameSpecifier, sameDirectory⟩
      rcases notAsked with h | h
      · exact h sameSpecifier
      · exact absurd sameDirectory (Bool.eq_false_iff.mp h)

/-- As long as no file changes, a question changes no answer. -/
theorem agrees_resolveFrom (tree : FileTree) (resolver : Resolver) (directory : Path)
    (specifier : String) (importer : Option Path) :
    Agrees tree resolver (resolver.resolveFrom tree directory specifier importer).2 := by
  rw [resolveFrom]
  cases notRemembered : resolver.remembered? directory specifier with
  | some path => exact Agrees.refl tree resolver
  | none =>
    dsimp only
    cases found : search tree resolver.policy directory specifier importer with
    | error error => exact Agrees.refl tree resolver
    | ok path =>
      intro other specifier' importer'
      rw [answer_eq, answer_eq, remembered?_cons]
      dsimp only
      by_cases isAsked : specifier = specifier' ∧ directory.same other = true
      · -- the question that was asked: it was not remembered, and a search finds the same path
        rw [if_pos isAsked]
        obtain ⟨rfl, sameDirectory⟩ := isAsked
        rw [← remembered?_congr resolver specifier sameDirectory, notRemembered]
        rw [search_eq_ok_iff, candidates_congr _ _ sameDirectory] at found
        exact (search_eq_ok_iff.mpr found).symm
      · rw [if_neg isAsked]

theorem Agrees.of_resolve {tree : FileTree} {resolver other after : Resolver} {specifier : String}
    {importer : Path} {result : Except BuildError Path} (h : Agrees tree resolver other)
    (found : other.resolve tree specifier importer = (result, after)) :
    Agrees tree resolver after := by
  have agrees := agrees_resolveFrom tree other (directoryOf importer) specifier (some importer)
  rw [← resolve, found] at agrees
  exact h.trans agrees

theorem length_found_resolveFrom_le (tree : FileTree) (resolver : Resolver) (directory : Path)
    (specifier : String) (importer : Option Path) :
    resolver.found.length ≤
      (resolver.resolveFrom tree directory specifier importer).2.found.length := by
  rw [resolveFrom]
  cases resolver.remembered? directory specifier with
  | some path => exact Nat.le_refl _
  | none =>
    dsimp only
    cases search tree resolver.policy directory specifier importer with
    | ok path => exact Nat.le_succ _
    | error error => exact Nat.le_refl _

end Resolver

end ModuleBundler
