import FairMQ.Data.TransitionSystem
import Mathlib.Data.List.Basic
import Mathlib.Data.List.Nodup
import Mathlib.Logic.Function.Basic

namespace FairMQ.Plugins

open FairMQ.Data

inductive FileType where
  | regular | directory | other
deriving DecidableEq, Repr

abbrev FileSystem := String → Option FileType

inductive Location where
  | program
  | library (searchPath fileName : String)
deriving DecidableEq, Repr

/-- An entry that `operator[]` has made is empty. -/
inductive Factory where
  | empty
  | imported (location : Location)
deriving DecidableEq, Repr

structure PluginManager where
  fSearchPaths : List String := ["."]
  fPluginFactories : String → Option Factory := fun _ => none
  fPluginOrder : List String := []
  fPluginProgOptions : String → Option String := fun _ => none

def quotedPath (path : String) : String :=
  String.ofList ('"' :: path.toList.flatMap (fun character =>
    if character = '&' ∨ character = '"' then ['&', character] else [character]) ++ ['"'])

def validateSearchPath (files : FileSystem) (path : String) : Except String Unit :=
  if path = "" then .error "Specified path is empty."
  else
    match files path with
    | some .regular | some .other => .error (quotedPath path ++ " is not a directory.")
    | some .directory | none => .ok ()

namespace PluginManager

variable (files : FileSystem)

def setSearchPaths (searchPaths : List String) (manager : PluginManager) :
    Except String PluginManager := do
  searchPaths.forM (validateSearchPath files)
  return { manager with fSearchPaths := searchPaths }

def appendSearchPath (manager : PluginManager) (path : String) : Except String PluginManager := do
  validateSearchPath files path
  return { manager with fSearchPaths := manager.fSearchPaths ++ [path] }

def prependSearchPath (manager : PluginManager) (path : String) : Except String PluginManager := do
  validateSearchPath files path
  return { manager with fSearchPaths := path :: manager.fSearchPaths }

end PluginManager

inductive SearchPathArg where
  | prepending (path : String)
  | appending (path : String)
  | overriding (path : String)
deriving DecidableEq, Repr

def readSearchPathArg (arg : String) : SearchPathArg :=
  match arg.toList with
  | '<' :: path => .prepending (String.ofList path)
  | '>' :: path => .appending (String.ofList path)
  | _ => .overriding arg

namespace SearchPathArg

def path : SearchPathArg → String
  | prepending path | appending path | overriding path => path

def prepended? : SearchPathArg → Option String
  | prepending path => some path
  | _ => none

def appended? : SearchPathArg → Option String
  | appending path => some path
  | _ => none

def overriding? : SearchPathArg → Option String
  | overriding path => some path
  | _ => none

end SearchPathArg

structure SearchPathLists where
  prepend : List String := []
  append : List String := []
  searchPaths : List String := []
deriving DecidableEq, Repr

def SearchPathLists.add (lists : SearchPathLists) (arg : String) : SearchPathLists :=
  match readSearchPathArg arg with
  | .prepending path => { lists with prepend := lists.prepend ++ [path] }
  | .appending path => { lists with append := lists.append ++ [path] }
  | .overriding path => { lists with searchPaths := lists.searchPaths ++ [path] }

def PluginManager.ofArgs (files : FileSystem) (args : List String) :
    Except String PluginManager := do
  let lists := args.foldl SearchPathLists.add {}
  let manager ← PluginManager.setSearchPaths files lists.searchPaths {}
  let manager ← lists.prepend.foldlM (PluginManager.prependSearchPath files) manager
  lists.append.foldlM (PluginManager.appendSearchPath files) manager

def prependedPaths (args : List String) : List String :=
  args.filterMap fun arg => (readSearchPathArg arg).prepended?

def appendedPaths (args : List String) : List String :=
  args.filterMap fun arg => (readSearchPathArg arg).appended?

def overridingPaths (args : List String) : List String :=
  args.filterMap fun arg => (readSearchPathArg arg).overriding?

def composedSearchPath (args : List String) : List String :=
  (prependedPaths args).reverse ++
    (if overridingPaths args = [] then ["."] else overridingPaths args) ++ appendedPaths args

section SearchPaths

variable {files : FileSystem}

def Searchable (files : FileSystem) (path : String) : Prop :=
  path ≠ "" ∧ files path ≠ some .regular ∧ files path ≠ some .other

theorem validateSearchPath_iff {path : String} :
    validateSearchPath files path = .ok () ↔ Searchable files path := by
  unfold validateSearchPath Searchable
  split
  · simp_all
  · split <;> simp_all

theorem bind_eq_ok_iff {ε α β : Type} {first : Except ε α} {next : α → Except ε β} {result : β} :
    (first >>= next) = .ok result ↔ ∃ value, first = .ok value ∧ next value = .ok result := by
  cases first with
  | error reason => simp [bind, Except.bind]
  | ok value => simp [bind, Except.bind]

theorem forM_validateSearchPath_iff {paths : List String} :
    paths.forM (validateSearchPath files) = .ok () ↔ ∀ path ∈ paths, Searchable files path := by
  induction paths with
  | nil => simp [pure, Except.pure]
  | cons path paths ih =>
      rw [List.forall_mem_cons, ← validateSearchPath_iff, ← ih]
      change (validateSearchPath files path >>= fun _ => paths.forM (validateSearchPath files)) =
        .ok () ↔ _
      rw [bind_eq_ok_iff]
      constructor
      · rintro ⟨_, first, rest⟩
        exact ⟨first, rest⟩
      · rintro ⟨first, rest⟩
        exact ⟨(), first, rest⟩

theorem setSearchPaths_iff {paths : List String} {before after : PluginManager} :
    before.setSearchPaths files paths = .ok after ↔
      (∀ path ∈ paths, Searchable files path) ∧
        after = { before with fSearchPaths := paths } := by
  rw [PluginManager.setSearchPaths, bind_eq_ok_iff, ← forM_validateSearchPath_iff]
  constructor
  · rintro ⟨_, valid, same⟩
    exact ⟨valid, (Except.ok.inj same).symm⟩
  · rintro ⟨valid, rfl⟩
    exact ⟨(), valid, rfl⟩

theorem addSearchPaths_iff {add : PluginManager → String → Except String PluginManager}
    (extend : List String → String → List String)
    (adds : ∀ manager path, add manager path = (validateSearchPath files path >>= fun _ =>
      .ok { manager with fSearchPaths := extend manager.fSearchPaths path }))
    {paths : List String} {before after : PluginManager} :
    paths.foldlM add before = .ok after ↔
      (∀ path ∈ paths, Searchable files path) ∧
        after = { before with fSearchPaths := paths.foldl extend before.fSearchPaths } := by
  induction paths generalizing before with
  | nil => simp [pure, Except.pure, eq_comm]
  | cons path paths ih =>
      rw [List.foldlM_cons, bind_eq_ok_iff, List.forall_mem_cons, adds]
      constructor
      · rintro ⟨next, first, rest⟩
        obtain ⟨_, valid, same⟩ := bind_eq_ok_iff.mp first
        cases same
        obtain ⟨others, rfl⟩ := ih.mp rest
        exact ⟨⟨validateSearchPath_iff.mp valid, others⟩, rfl⟩
      · rintro ⟨⟨searchable, others⟩, rfl⟩
        refine ⟨_, bind_eq_ok_iff.mpr ⟨(), validateSearchPath_iff.mpr searchable, rfl⟩, ?_⟩
        exact ih.mpr ⟨others, rfl⟩

theorem foldl_add (args : List String) (lists : SearchPathLists) :
    args.foldl SearchPathLists.add lists =
      { prepend := lists.prepend ++ prependedPaths args
        append := lists.append ++ appendedPaths args
        searchPaths := lists.searchPaths ++ overridingPaths args } := by
  induction args generalizing lists with
  | nil => simp [prependedPaths, appendedPaths, overridingPaths]
  | cons arg args ih =>
      rw [List.foldl_cons, ih]
      cases isArg : readSearchPathArg arg <;>
        simp [SearchPathLists.add, prependedPaths, appendedPaths, overridingPaths, isArg,
          SearchPathArg.prepended?, SearchPathArg.appended?, SearchPathArg.overriding?]

theorem forall_paths_iff {args : List String} {property : String → Prop} :
    (∀ arg ∈ args, property (readSearchPathArg arg).path) ↔
      (∀ path ∈ overridingPaths args, property path) ∧
      (∀ path ∈ prependedPaths args, property path) ∧
      ∀ path ∈ appendedPaths args, property path := by
  induction args with
  | nil => simp [prependedPaths, appendedPaths, overridingPaths]
  | cons arg args ih =>
      rw [List.forall_mem_cons, ih]
      cases isArg : readSearchPathArg arg <;>
        simp [prependedPaths, appendedPaths, overridingPaths, isArg, SearchPathArg.path,
          SearchPathArg.prepended?, SearchPathArg.appended?, SearchPathArg.overriding?] <;>
        tauto

theorem readSearchPathArg_path_eq_empty_iff {arg : String} (nonempty : arg ≠ "") :
    (readSearchPathArg arg).path = "" ↔ arg = "<" ∨ arg = ">" := by
  simp only [← String.toList_inj]
  unfold readSearchPathArg
  split
  · rename_i path isArg
    simp [SearchPathArg.path, isArg]
  · rename_i path isArg
    simp [SearchPathArg.path, isArg]
  · rename_i notPrepending notAppending
    refine iff_of_false (fun empty => nonempty (String.toList_inj.mp empty)) ?_
    rintro (bare | bare)
    · exact notPrepending [] bare
    · exact notAppending [] bare

theorem ofArgs_iff {args : List String} {manager : PluginManager} :
    PluginManager.ofArgs files args = .ok manager ↔
      (∀ arg ∈ args, Searchable files (readSearchPathArg arg).path) ∧
        manager = { fSearchPaths :=
          (prependedPaths args).reverse ++ overridingPaths args ++ appendedPaths args } := by
  rw [forall_paths_iff]
  simp only [PluginManager.ofArgs, foldl_add, List.nil_append, bind_eq_ok_iff, setSearchPaths_iff]
  have prepends : ∀ manager path, PluginManager.prependSearchPath files manager path =
      (validateSearchPath files path >>= fun _ =>
        .ok { manager with fSearchPaths := path :: manager.fSearchPaths }) := fun _ _ => rfl
  have appends : ∀ manager path, PluginManager.appendSearchPath files manager path =
      (validateSearchPath files path >>= fun _ =>
        .ok { manager with fSearchPaths := manager.fSearchPaths ++ [path] }) := fun _ _ => rfl
  have inOrder : ∀ paths searchPaths : List String,
      paths.foldl (fun paths path => paths ++ [path]) searchPaths = searchPaths ++ paths := by
    intro paths searchPaths
    rw [List.foldl_append_eq_append, ← List.flatMap_def, List.flatMap_singleton']
  have inReverse : ∀ paths searchPaths : List String,
      paths.foldl (fun paths path => path :: paths) searchPaths = paths.reverse ++ searchPaths := by
    simp
  simp only [addSearchPaths_iff (fun paths path => path :: paths) prepends, inReverse,
    addSearchPaths_iff (fun paths path => paths ++ [path]) appends, inOrder]
  constructor
  · rintro ⟨_, ⟨overriding, rfl⟩, _, ⟨prepended, rfl⟩, appended, rfl⟩
    exact ⟨⟨overriding, prepended, appended⟩, rfl⟩
  · rintro ⟨⟨overriding, prepended, appended⟩, rfl⟩
    exact ⟨_, ⟨overriding, rfl⟩, _, ⟨prepended, rfl⟩, appended, rfl⟩

end SearchPaths

/-- The search path is composed as described exactly if there is an overriding path, and none of
the paths is empty or a file of another kind. -/
theorem search_path_composition_iff {files : FileSystem} {args : List String}
    (nonempty : ∀ arg ∈ args, arg ≠ "")
    (noFiles : ∀ arg ∈ args, files (readSearchPathArg arg).path ≠ some .regular) :
    (∃ manager, PluginManager.ofArgs files args = .ok manager ∧
      manager.fSearchPaths = composedSearchPath args) ↔
      overridingPaths args ≠ [] ∧
        ∀ arg ∈ args, arg ≠ "<" ∧ arg ≠ ">" ∧
          files (readSearchPathArg arg).path ≠ some .other := by
  have composed : (prependedPaths args).reverse ++ overridingPaths args ++ appendedPaths args =
      composedSearchPath args ↔ overridingPaths args ≠ [] := by
    unfold composedSearchPath
    rw [List.append_left_inj, List.append_right_inj]
    split <;> simp_all
  constructor
  · rintro ⟨manager, built, isComposed⟩
    obtain ⟨searchable, rfl⟩ := ofArgs_iff.mp built
    refine ⟨composed.mp isComposed, ?_⟩
    intro arg member
    obtain ⟨path, _, notOther⟩ := searchable arg member
    have notBare := (readSearchPathArg_path_eq_empty_iff (nonempty arg member)).not.mp path
    exact ⟨fun bare => notBare (.inl bare), fun bare => notBare (.inr bare), notOther⟩
  · rintro ⟨overriding, each⟩
    refine ⟨_, ofArgs_iff.mpr ⟨?_, rfl⟩, composed.mpr overriding⟩
    intro arg member
    obtain ⟨notPrepending, notAppending, notOther⟩ := each arg member
    refine ⟨?_, noFiles arg member, notOther⟩
    rw [ne_eq, readSearchPathArg_path_eq_empty_iff (nonempty arg member)]
    exact not_or.mpr ⟨notPrepending, notAppending⟩

theorem mixed_search_path :
    ∃ manager, PluginManager.ofArgs (fun _ => none) [">/lib", "</home", "/opt", "<.", "/usr"] =
        .ok manager ∧ manager.fSearchPaths = [".", "/home", "/opt", "/usr", "/lib"] :=
  (search_path_composition_iff (by decide) (by decide)).mpr ⟨by decide, by decide⟩

/-- Without an overriding path the default is lost. -/
theorem default_search_path_lost :
    (PluginManager.ofArgs (fun _ => none) [">/lib"]).toOption.map (·.fSearchPaths) =
        some ["/lib"] ∧
      composedSearchPath [">/lib"] = [".", "/lib"] := by
  decide

end FairMQ.Plugins
