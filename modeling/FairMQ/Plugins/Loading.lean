import FairMQ.Plugins.Manager

namespace FairMQ.Plugins

open FairMQ.Data

/-- An exception of `LoadSymbols` with its text. -/
inductive Failure where
  | systemError (what : String)
  | other (what : String)
deriving DecidableEq, Repr

/-- What happens when the symbols of a plugin are loaded: the exception of the constructor of
`shared_library`, that of `import_alias`, and what the function with the program options
returns or throws. -/
structure Symbols where
  opened : Option Failure := none
  factory : Option Failure := none
  progOptions : Except Failure (Option String) := .ok none

namespace Symbols

def failure (symbols : Symbols) : Option Failure :=
  symbols.opened <|> symbols.factory <|>
    match symbols.progOptions with
    | .error failure => some failure
    | .ok _ => none

end Symbols

/-- `find` comes upon the message of a file that is not there. -/
def noSuchFile (what : String) : Bool :=
  what.toList.tails.any fun text => "No such file or directory".toList.isPrefixOf text

inductive LoadError where
  | pluginLoadError (what : String)
  | other (what : String)
deriving DecidableEq, Repr

inductive Mechanism where
  | prelinkedDynamic | dynamic | static
deriving DecidableEq, Repr

def readPluginName (pluginName : String) : Mechanism × String :=
  match pluginName.toList with
  | 'p' :: ':' :: name => (.prelinkedDynamic, String.ofList name)
  | 'd' :: ':' :: name => (.dynamic, String.ofList name)
  | 's' :: ':' :: name => (.static, String.ofList name)
  | _ => (.dynamic, pluginName)

def libPrefix : String := "FairMQPlugin_"

namespace PluginManager

def setFactory (pluginName : String) (factory : Factory) (manager : PluginManager) :
    PluginManager :=
  { manager with
    fPluginFactories := Function.update manager.fPluginFactories pluginName (some factory) }

/-- `fPluginFactories[pluginName]` makes an entry that is not there. -/
def enterFactory (pluginName : String) (manager : PluginManager) : PluginManager :=
  if (manager.fPluginFactories pluginName).isSome then manager
  else manager.setFactory pluginName .empty

/-- `insert` keeps an entry that is there. -/
def insertProgOptions (pluginName options : String) (manager : PluginManager) : PluginManager :=
  if (manager.fPluginProgOptions pluginName).isSome then manager
  else
    { manager with
      fPluginProgOptions :=
        Function.update manager.fPluginProgOptions pluginName (some options) }

def pushOrder (pluginName : String) (manager : PluginManager) : PluginManager :=
  { manager with fPluginOrder := manager.fPluginOrder ++ [pluginName] }

/-- Whether the entry for the factory is made before the factory is imported is up to the
compiler: the language leaves the order of the two sides of the assignment open. -/
def loadSymbols (entryFirst : Bool) (pluginName : String) (location : Location)
    (symbols : Symbols) (manager : PluginManager) : PluginManager × Option Failure :=
  match symbols.opened with
  | some failure => (manager, some failure)
  | none =>
      match symbols.factory with
      | some failure =>
          (if entryFirst then manager.enterFactory pluginName else manager, some failure)
      | none =>
          let manager := manager.setFactory pluginName (.imported location)
          match symbols.progOptions with
          | .error failure => (manager, some failure)
          | .ok none => (manager, none)
          | .ok (some options) => (manager.insertProgOptions pluginName options, none)

variable (entryFirst : Bool) (symbolsAt : Location → Symbols)

def loadFromProgram (description pluginName : String) (manager : PluginManager) :
    PluginManager × Option LoadError :=
  if (manager.fPluginFactories pluginName).isSome then (manager, none)
  else
    match manager.loadSymbols entryFirst pluginName .program (symbolsAt .program) with
    | (loaded, none) => (loaded.pushOrder pluginName, none)
    | (loaded, some (.systemError what)) =>
        (loaded, some (.pluginLoadError ("An error occurred while loading " ++ description ++
          " plugin " ++ pluginName ++ ": " ++ what)))
    | (loaded, some (.other what)) => (loaded, some (.other what))

def loadPluginPrelinkedDynamic (pluginName : String) (manager : PluginManager) :
    PluginManager × Option LoadError :=
  manager.loadFromProgram entryFirst symbolsAt "prelinked dynamic" pluginName

def loadPluginStatic (pluginName : String) (manager : PluginManager) :
    PluginManager × Option LoadError :=
  manager.loadFromProgram entryFirst symbolsAt "static" pluginName

/-- The loop over the search paths: a file that is not there is looked for in the next one. -/
def searchPlugin (pluginName : String) : List String → PluginManager →
    PluginManager × Option LoadError
  | [], manager =>
      (manager, some (.pluginLoadError ("The plugin " ++ pluginName ++
        " could not be found in the plugin search paths.")))
  | searchPath :: searchPaths, manager =>
      let location := Location.library searchPath (libPrefix ++ pluginName)
      match manager.loadSymbols entryFirst pluginName location (symbolsAt location) with
      | (loaded, none) => (loaded.pushOrder pluginName, none)
      | (loaded, some (.systemError what)) =>
          if noSuchFile what then searchPlugin pluginName searchPaths loaded
          else
            (loaded, some (.pluginLoadError ("An error occurred while loading dynamic plugin " ++
              pluginName ++ ": " ++ what)))
      | (loaded, some (.other what)) => (loaded, some (.other what))

def loadPluginDynamic (pluginName : String) (manager : PluginManager) :
    PluginManager × Option LoadError :=
  if (manager.fPluginFactories pluginName).isSome then (manager, none)
  else searchPlugin entryFirst symbolsAt pluginName manager.fSearchPaths manager

def loadPlugin (pluginName : String) (manager : PluginManager) :
    PluginManager × Option LoadError :=
  match readPluginName pluginName with
  | (.prelinkedDynamic, name) => manager.loadPluginPrelinkedDynamic entryFirst symbolsAt name
  | (.dynamic, name) => manager.loadPluginDynamic entryFirst symbolsAt name
  | (.static, name) => manager.loadPluginStatic entryFirst symbolsAt name

end PluginManager

inductive PluginAction where
  | setSearchPaths (files : FileSystem) (searchPaths : List String)
  | appendSearchPath (files : FileSystem) (path : String)
  | prependSearchPath (files : FileSystem) (path : String)
  | loadPlugin (pluginName : String) (symbolsAt : Location → Symbols)

/-- A call that throws leaves the manager as it has changed it so far. -/
def PluginManager.step (entryFirst : Bool) (manager : PluginManager) :
    PluginAction → PluginManager
  | .setSearchPaths files searchPaths =>
      (manager.setSearchPaths files searchPaths).toOption.getD manager
  | .appendSearchPath files path => (manager.appendSearchPath files path).toOption.getD manager
  | .prependSearchPath files path => (manager.prependSearchPath files path).toOption.getD manager
  | .loadPlugin pluginName symbolsAt => (manager.loadPlugin entryFirst symbolsAt pluginName).1

def pluginSystem (entryFirst : Bool) : TransitionSystem PluginManager PluginAction where
  initial manager := ∃ searchPaths, manager = { fSearchPaths := searchPaths }
  step manager action := some (manager.step entryFirst action)

structure PluginManager.Consistent (manager : PluginManager) : Prop where
  nodup : manager.fPluginOrder.Nodup
  order : ∀ name, name ∈ manager.fPluginOrder ↔ (manager.fPluginFactories name).isSome
  options : ∀ name, (manager.fPluginProgOptions name).isSome →
    (manager.fPluginFactories name).isSome

structure SameRegistry (before after : PluginManager) : Prop where
  factories : after.fPluginFactories = before.fPluginFactories
  order : after.fPluginOrder = before.fPluginOrder
  options : after.fPluginProgOptions = before.fPluginProgOptions

/-- `LoadSymbols` fails and leaves an entry for the factory behind. -/
def Symbols.leavesFactory (entryFirst : Bool) (symbols : Symbols) : Prop :=
  symbols.opened = none ∧
    (symbols.factory ≠ none ∧ entryFirst = true ∨
      symbols.factory = none ∧ ∃ failure, symbols.progOptions = .error failure)

namespace PluginManager

variable {entryFirst : Bool} {symbolsAt : Location → Symbols} {pluginName : String}

def searched (symbolsAt : Location → Symbols) (pluginName : String) : List String → List Symbols
  | [] => []
  | searchPath :: searchPaths =>
      let symbols := symbolsAt (.library searchPath (libPrefix ++ pluginName))
      symbols ::
        match symbols.failure with
        | some (.systemError what) =>
            if noSuchFile what then searched symbolsAt pluginName searchPaths else []
        | _ => []

def attempts (symbolsAt : Location → Symbols) (pluginName : String) (manager : PluginManager) :
    List Symbols :=
  let (mechanism, name) := readPluginName pluginName
  if (manager.fPluginFactories name).isSome then []
  else
    match mechanism with
    | .prelinkedDynamic | .static => [symbolsAt .program]
    | .dynamic => searched symbolsAt name manager.fSearchPaths

end PluginManager

/-- If all attempts to load the symbols fail, none of them leaves a factory behind. -/
def LeavesNothing (entryFirst : Bool) (manager : PluginManager) : PluginAction → Prop
  | .loadPlugin pluginName symbolsAt =>
      (∀ symbols ∈ manager.attempts symbolsAt pluginName, symbols.failure ≠ none) →
        ∀ symbols ∈ manager.attempts symbolsAt pluginName, ¬ symbols.leavesFactory entryFirst
  | _ => True

structure Registers (entryFirst : Bool) (name : String) (attempts : List Symbols)
    (before after : PluginManager) (thrown : Bool) : Prop where
  others : ∀ other ≠ name, after.fPluginFactories other = before.fPluginFactories other ∧
    after.fPluginProgOptions other = before.fPluginProgOptions other
  order : after.fPluginOrder =
    if thrown then before.fPluginOrder else before.fPluginOrder ++ [name]
  kept : (before.fPluginFactories name).isSome → (after.fPluginFactories name).isSome
  succeeded : thrown = false → (after.fPluginFactories name).isSome
  options : thrown = true → after.fPluginProgOptions = before.fPluginProgOptions
  clean : thrown = true → (∀ symbols ∈ attempts, ¬ symbols.leavesFactory entryFirst) →
    after.fPluginFactories = before.fPluginFactories
  left : thrown = true → (∃ symbols ∈ attempts, symbols.leavesFactory entryFirst) →
    (after.fPluginFactories name).isSome

section Registers

variable {entryFirst : Bool} {symbolsAt : Location → Symbols} {name : String}
  {location : Location} {symbols : Symbols} {attempts : List Symbols}
  {before middle after : PluginManager} {thrown : Bool}

theorem loadSymbols_failure (entryFirst : Bool) (name : String) (location : Location)
    (symbols : Symbols) (manager : PluginManager) :
    (manager.loadSymbols entryFirst name location symbols).2 = symbols.failure := by
  unfold PluginManager.loadSymbols Symbols.failure
  cases symbols.opened with
  | some failure => rfl
  | none =>
      cases symbols.factory with
      | some failure => rfl
      | none =>
          cases symbols.progOptions with
          | error failure => rfl
          | ok options => cases options <;> rfl

theorem setFactory_registers (factory : Factory)
    (left : ∃ symbols ∈ attempts, symbols.leavesFactory entryFirst) :
    Registers entryFirst name attempts before (before.setFactory name factory) true where
  others other apart := ⟨Function.update_of_ne apart _ _, rfl⟩
  order := rfl
  kept _ := by simp [PluginManager.setFactory]
  succeeded := by simp
  options _ := rfl
  clean _ none := by
    obtain ⟨symbols, member, leaves⟩ := left
    exact absurd leaves (none symbols member)
  left _ _ := by simp [PluginManager.setFactory]

theorem enterFactory_registers
    (left : ∃ symbols ∈ attempts, symbols.leavesFactory entryFirst) :
    Registers entryFirst name attempts before (before.enterFactory name) true := by
  unfold PluginManager.enterFactory
  split
  · rename_i there
    refine ⟨fun _ _ => ⟨rfl, rfl⟩, rfl, id, fun _ => there, fun _ => rfl, fun _ _ => rfl, ?_⟩
    exact fun _ _ => there
  · exact setFactory_registers .empty left

theorem unchanged_registers
    (none : ∀ symbols ∈ attempts, ¬ symbols.leavesFactory entryFirst) :
    Registers entryFirst name attempts before before true where
  others _ _ := ⟨rfl, rfl⟩
  order := rfl
  kept there := there
  succeeded := by simp
  options _ := rfl
  clean _ _ := rfl
  left _ some := by
    obtain ⟨symbols, member, leaves⟩ := some
    exact absurd leaves (none symbols member)

theorem loadSymbols_failed {failure : Failure}
    (loaded : before.loadSymbols entryFirst name location symbols = (after, some failure)) :
    Registers entryFirst name [symbols] before after true := by
  simp only [PluginManager.loadSymbols] at loaded
  split at loaded
  · rename_i opened
    cases loaded
    exact unchanged_registers (by simp [Symbols.leavesFactory, opened])
  · rename_i opened
    split at loaded
    · rename_i factory
      cases entryFirst with
      | false =>
          cases loaded
          exact unchanged_registers (by simp [Symbols.leavesFactory, factory])
      | true =>
          cases loaded
          apply enterFactory_registers
          exact ⟨symbols, List.mem_singleton_self _, opened, .inl ⟨by simp [factory], rfl⟩⟩
    · rename_i factory
      split at loaded
      · rename_i failure progOptions
        cases loaded
        apply setFactory_registers
        exact ⟨symbols, List.mem_singleton_self _, opened, .inr ⟨factory, failure, progOptions⟩⟩
      · cases loaded
      · cases loaded

theorem insertProgOptions_frame (options : String) (manager : PluginManager) :
    (manager.insertProgOptions name options).fPluginFactories = manager.fPluginFactories ∧
      (manager.insertProgOptions name options).fPluginOrder = manager.fPluginOrder ∧
      ∀ other ≠ name, (manager.insertProgOptions name options).fPluginProgOptions other =
        manager.fPluginProgOptions other := by
  unfold PluginManager.insertProgOptions
  split
  · exact ⟨rfl, rfl, fun _ _ => rfl⟩
  · exact ⟨rfl, rfl, fun _ apart => Function.update_of_ne apart _ _⟩

theorem pushOrder_registers {factory : Factory}
    (factories : middle.fPluginFactories = (before.setFactory name factory).fPluginFactories)
    (order : middle.fPluginOrder = before.fPluginOrder)
    (options : ∀ other ≠ name,
      middle.fPluginProgOptions other = before.fPluginProgOptions other) :
    Registers entryFirst name attempts before (middle.pushOrder name) false where
  others other apart := by
    refine ⟨?_, options other apart⟩
    exact (congrFun factories other).trans (Function.update_of_ne apart _ _)
  order := congrArg (· ++ [name]) order
  kept _ := by simp [PluginManager.pushOrder, factories, PluginManager.setFactory]
  succeeded _ := by simp [PluginManager.pushOrder, factories, PluginManager.setFactory]
  options := by simp
  clean := by simp
  left := by simp

theorem loadSymbols_succeeded
    (loaded : before.loadSymbols entryFirst name location symbols = (after, none)) :
    Registers entryFirst name attempts before (after.pushOrder name) false := by
  simp only [PluginManager.loadSymbols] at loaded
  split at loaded
  · cases loaded
  · split at loaded
    · cases loaded
    · split at loaded
      · cases loaded
      · cases loaded
        exact pushOrder_registers rfl rfl fun _ _ => rfl
      · cases loaded
        obtain ⟨factories, order, options⟩ := insertProgOptions_frame _ _
        exact pushOrder_registers factories order options

theorem Registers.next (failed : Registers entryFirst name [symbols] before middle true)
    (rest : Registers entryFirst name attempts middle after thrown) :
    Registers entryFirst name (symbols :: attempts) before after thrown where
  others other apart :=
    ⟨(rest.others other apart).1.trans (failed.others other apart).1,
      (rest.others other apart).2.trans (failed.others other apart).2⟩
  order := by rw [rest.order, failed.order, if_pos rfl]
  kept there := rest.kept (failed.kept there)
  succeeded := rest.succeeded
  options isThrown := (rest.options isThrown).trans (failed.options rfl)
  clean isThrown none := by
    obtain ⟨first, others⟩ := List.forall_mem_cons.mp none
    exact (rest.clean isThrown others).trans
      (failed.clean rfl (List.forall_mem_singleton.mpr first))
  left isThrown some := by
    obtain ⟨left, member, leaves⟩ := some
    rcases List.mem_cons.mp member with rfl | other
    · exact rest.kept (failed.left rfl ⟨left, List.mem_singleton_self _, leaves⟩)
    · exact rest.left isThrown ⟨left, other, leaves⟩

/-- Induction along the search: it ends with an attempt that loads the symbols or fails for good,
and goes on with what a failed attempt has left behind. -/
theorem searchPlugin_rule
    {motive : List Symbols → PluginManager → PluginManager × Option LoadError → Prop}
    (missing : ∀ manager error, motive [] manager (manager, some error))
    (loads : ∀ {location manager loaded},
      manager.loadSymbols entryFirst name location (symbolsAt location) = (loaded, none) →
        motive [symbolsAt location] manager (loaded.pushOrder name, none))
    (fails : ∀ {location manager loaded failure} (error : LoadError),
      manager.loadSymbols entryFirst name location (symbolsAt location) =
        (loaded, some failure) →
        motive [symbolsAt location] manager (loaded, some error))
    (next : ∀ {location manager loaded failure rest result},
      manager.loadSymbols entryFirst name location (symbolsAt location) =
        (loaded, some failure) →
      motive rest loaded result → motive (symbolsAt location :: rest) manager result)
    (searchPaths : List String) (manager : PluginManager) :
    motive (PluginManager.searched symbolsAt name searchPaths) manager
      (manager.searchPlugin entryFirst symbolsAt name searchPaths) := by
  induction searchPaths generalizing manager with
  | nil => exact missing manager _
  | cons searchPath searchPaths ih =>
      have isFailure := loadSymbols_failure entryFirst name
        (.library searchPath (libPrefix ++ name))
        (symbolsAt (.library searchPath (libPrefix ++ name))) manager
      cases loaded : manager.loadSymbols entryFirst name (.library searchPath (libPrefix ++ name))
          (symbolsAt (.library searchPath (libPrefix ++ name))) with
      | mk middle failure =>
          rw [loaded] at isFailure
          simp only [PluginManager.searchPlugin, PluginManager.searched, loaded, ← isFailure]
          cases failure with
          | none => exact loads loaded
          | some failure =>
              cases failure with
              | other what => exact fails _ loaded
              | systemError what =>
                  dsimp only
                  by_cases missing : noSuchFile what = true
                  · simp only [if_pos missing]
                    exact next loaded (ih middle)
                  · simp only [if_neg missing]
                    exact fails _ loaded

theorem searchPlugin_registers (searchPaths : List String) (manager : PluginManager) :
    Registers entryFirst name (PluginManager.searched symbolsAt name searchPaths) manager
      (manager.searchPlugin entryFirst symbolsAt name searchPaths).1
      (manager.searchPlugin entryFirst symbolsAt name searchPaths).2.isSome :=
  searchPlugin_rule
    (motive := fun attempts before result =>
      Registers entryFirst name attempts before result.1 result.2.isSome)
    (fun _ _ => unchanged_registers (by simp)) loadSymbols_succeeded
    (fun _ => loadSymbols_failed) (fun failed rest => (loadSymbols_failed failed).next rest)
    searchPaths manager

theorem loadFromProgram_registers (description : String) {manager : PluginManager}
    (fresh : (manager.fPluginFactories name).isSome = false) :
    Registers entryFirst name [symbolsAt .program] manager
      (manager.loadFromProgram entryFirst symbolsAt description name).1
      (manager.loadFromProgram entryFirst symbolsAt description name).2.isSome := by
  simp only [PluginManager.loadFromProgram, fresh]
  cases loaded : manager.loadSymbols entryFirst name .program (symbolsAt .program) with
  | mk middle failure =>
      cases failure with
      | none => exact loadSymbols_succeeded loaded
      | some failure => cases failure <;> exact loadSymbols_failed loaded

theorem loadPlugin_registers (entryFirst : Bool) (symbolsAt : Location → Symbols)
    {pluginName : String} {manager : PluginManager}
    (fresh : (manager.fPluginFactories (readPluginName pluginName).2).isSome = false) :
    Registers entryFirst (readPluginName pluginName).2 (manager.attempts symbolsAt pluginName)
      manager (manager.loadPlugin entryFirst symbolsAt pluginName).1
      (manager.loadPlugin entryFirst symbolsAt pluginName).2.isSome := by
  unfold PluginManager.loadPlugin PluginManager.attempts
  cases isName : readPluginName pluginName with
  | mk mechanism name =>
      rw [isName] at fresh
      cases mechanism with
      | prelinkedDynamic | static =>
          simp only [fresh]
          exact loadFromProgram_registers _ fresh
      | dynamic =>
          simp only [fresh, PluginManager.loadPluginDynamic]
          exact searchPlugin_registers manager.fSearchPaths manager

theorem searchPlugin_throws (searchPaths : List String) (manager : PluginManager) :
    (manager.searchPlugin entryFirst symbolsAt name searchPaths).2 ≠ none ↔
      ∀ symbols ∈ PluginManager.searched symbolsAt name searchPaths, symbols.failure ≠ none := by
  apply searchPlugin_rule (motive := fun attempts _ result =>
    result.2 ≠ none ↔ ∀ symbols ∈ attempts, symbols.failure ≠ none)
  case missing => simp
  case loads =>
    intro location manager loaded succeeded
    simp [← loadSymbols_failure entryFirst name location _ manager, succeeded]
  case fails =>
    intro location manager loaded failure error failed
    simp [← loadSymbols_failure entryFirst name location _ manager, failed]
  case next =>
    intro location manager loaded failure rest result failed ih
    rw [ih, List.forall_mem_cons, ← loadSymbols_failure entryFirst name location _ manager, failed]
    simp

theorem loadPlugin_throws (entryFirst : Bool) (symbolsAt : Location → Symbols)
    {pluginName : String} {manager : PluginManager}
    (fresh : (manager.fPluginFactories (readPluginName pluginName).2).isSome = false) :
    (manager.loadPlugin entryFirst symbolsAt pluginName).2 ≠ none ↔
      ∀ symbols ∈ manager.attempts symbolsAt pluginName, symbols.failure ≠ none := by
  unfold PluginManager.loadPlugin PluginManager.attempts
  cases isName : readPluginName pluginName with
  | mk mechanism name =>
      rw [isName] at fresh
      cases mechanism with
      | prelinkedDynamic | static =>
          have isFailure :=
            loadSymbols_failure entryFirst name .program (symbolsAt .program) manager
          simp only [fresh, PluginManager.loadPluginPrelinkedDynamic,
            PluginManager.loadPluginStatic, PluginManager.loadFromProgram, Bool.false_eq_true,
            ↓reduceIte, List.forall_mem_singleton, ← isFailure]
          split <;> rename_i loaded <;> simp [loaded]
      | dynamic =>
          simp only [fresh, PluginManager.loadPluginDynamic]
          exact searchPlugin_throws manager.fSearchPaths manager

theorem loadPlugin_loaded {pluginName : String} {manager : PluginManager}
    (loaded : (manager.fPluginFactories (readPluginName pluginName).2).isSome = true) :
    manager.loadPlugin entryFirst symbolsAt pluginName = (manager, none) := by
  unfold PluginManager.loadPlugin
  cases isName : readPluginName pluginName with
  | mk mechanism name =>
      rw [isName] at loaded
      cases mechanism <;> exact if_pos loaded

end Registers

namespace PluginManager.Consistent

variable {entryFirst : Bool} {name : String} {attempts : List Symbols}
  {before after : PluginManager} {thrown : Bool}

theorem of_sameRegistry (consistent : before.Consistent) (same : SameRegistry before after) :
    after.Consistent where
  nodup := same.order ▸ consistent.nodup
  order name := by rw [same.order, same.factories, consistent.order]
  options name := by
    rw [same.options, same.factories]
    exact consistent.options name

theorem registered (consistent : before.Consistent)
    (fresh : (before.fPluginFactories name).isSome = false)
    (registers : Registers entryFirst name attempts before after false) : after.Consistent := by
  have isNew : name ∉ before.fPluginOrder := by simp [consistent.order, fresh]
  have order : after.fPluginOrder = before.fPluginOrder ++ [name] := registers.order
  refine ⟨?_, ?_, ?_⟩
  · rw [order]
    exact List.concat_eq_append ▸ consistent.nodup.concat isNew
  · intro other
    rw [order, List.mem_append, List.mem_singleton, consistent.order]
    by_cases same : other = name
    · simp [same, registers.succeeded rfl]
    · simp [same, (registers.others other same).1]
  · intro other
    by_cases same : other = name
    · exact fun _ => same ▸ registers.succeeded rfl
    · obtain ⟨factories, options⟩ := registers.others other same
      rw [factories, options]
      exact consistent.options other

theorem not_of_left (consistent : before.Consistent)
    (fresh : (before.fPluginFactories name).isSome = false)
    (registers : Registers entryFirst name attempts before after true)
    (left : ∃ symbols ∈ attempts, symbols.leavesFactory entryFirst) : ¬ after.Consistent := by
  intro still
  have there := (still.order name).mpr (registers.left rfl left)
  rw [registers.order, if_pos rfl, consistent.order, fresh] at there
  cases there

theorem loadPlugin_iff {manager : PluginManager} (consistent : manager.Consistent)
    (pluginName : String) (symbolsAt : Location → Symbols) :
    ((manager.loadPlugin entryFirst symbolsAt pluginName).1.Consistent ∧
      ((manager.loadPlugin entryFirst symbolsAt pluginName).2 ≠ none →
        SameRegistry manager (manager.loadPlugin entryFirst symbolsAt pluginName).1)) ↔
      LeavesNothing entryFirst manager (.loadPlugin pluginName symbolsAt) := by
  cases fresh : (manager.fPluginFactories (readPluginName pluginName).2).isSome with
  | true =>
      rw [LeavesNothing, loadPlugin_loaded fresh]
      simp [consistent, PluginManager.attempts, fresh]
  | false =>
      have registers := loadPlugin_registers entryFirst symbolsAt fresh
      rw [LeavesNothing, ← loadPlugin_throws entryFirst symbolsAt fresh]
      cases thrown : (manager.loadPlugin entryFirst symbolsAt pluginName).2 with
      | none =>
          rw [thrown] at registers
          simp [consistent.registered fresh registers]
      | some error =>
          rw [thrown] at registers
          have isError : some error ≠ none := Option.some_ne_none error
          constructor
          · rintro ⟨still, _⟩ _ symbols member leaves
            exact consistent.not_of_left fresh registers ⟨symbols, member, leaves⟩ still
          · intro nothing
            have same : SameRegistry manager _ :=
              ⟨registers.clean rfl (nothing isError), registers.order, registers.options rfl⟩
            exact ⟨consistent.of_sameRegistry same, fun _ => same⟩

end PluginManager.Consistent

theorem exceptGetD_sameRegistry {manager : PluginManager} {path : Except String PluginManager}
    (same : ∀ after, path = .ok after → SameRegistry manager after) :
    SameRegistry manager (path.toOption.getD manager) := by
  cases path with
  | error reason => exact ⟨rfl, rfl, rfl⟩
  | ok after => exact same after rfl

theorem registry_of_reaches {entryFirst : Bool} {manager : PluginManager}
    (reached : (pluginSystem entryFirst).ReachesUnder (LeavesNothing entryFirst) manager) :
    manager.Consistent := by
  induction reached with
  | initial start =>
      obtain ⟨searchPaths, rfl⟩ := start
      exact ⟨List.nodup_nil, by simp, by simp⟩
  | @step before after action _ nothing stepped ih =>
      cases stepped
      cases action with
      | loadPlugin pluginName symbolsAt =>
          exact ((ih.loadPlugin_iff pluginName symbolsAt).mpr nothing).1
      | setSearchPaths files searchPaths =>
          apply ih.of_sameRegistry
          apply exceptGetD_sameRegistry
          intro after isAfter
          obtain ⟨_, rfl⟩ := setSearchPaths_iff.mp isAfter
          exact ⟨rfl, rfl, rfl⟩
      | appendSearchPath files path | prependSearchPath files path =>
          apply ih.of_sameRegistry
          apply exceptGetD_sameRegistry
          intro after isAfter
          obtain ⟨_, _, same⟩ := bind_eq_ok_iff.mp isAfter
          cases same
          exact ⟨rfl, rfl, rfl⟩

/-- As long as no call that throws has left a factory behind, the registry is consistent, and the
next call keeps to the law exactly if it leaves none either. -/
theorem plugin_registry_consistent_iff {entryFirst : Bool} {manager : PluginManager}
    (reached : (pluginSystem entryFirst).ReachesUnder (LeavesNothing entryFirst) manager)
    (pluginName : String) (symbolsAt : Location → Symbols) :
    manager.Consistent ∧
    (((manager.loadPlugin entryFirst symbolsAt pluginName).1.Consistent ∧
      ((manager.loadPlugin entryFirst symbolsAt pluginName).2 ≠ none →
        SameRegistry manager (manager.loadPlugin entryFirst symbolsAt pluginName).1)) ↔
      LeavesNothing entryFirst manager (.loadPlugin pluginName symbolsAt)) :=
  ⟨registry_of_reaches reached,
    (registry_of_reaches reached).loadPlugin_iff pluginName symbolsAt⟩

theorem static_plugin_registered :
    ((({ } : PluginManager).loadPlugin true (fun _ => { }) "s:control").1).fPluginOrder =
        ["control"] ∧
      ((({ } : PluginManager).loadPlugin true (fun _ => { }) "s:control").1).Consistent := by
  have reached : (pluginSystem true).ReachesUnder (LeavesNothing true) { } := .initial ⟨_, rfl⟩
  have law := plugin_registry_consistent_iff reached "s:control" fun _ => { }
  refine ⟨by decide, (law.2.mpr ?_).1⟩
  intro failed
  exact absurd rfl (failed { } (by simp [PluginManager.attempts, readPluginName]))

def withoutProgOptions (_ : Location) : Symbols :=
  { progOptions := .error (.systemError "undefined symbol") }

/-- Its factory is registered, but not its place in the order, and the next call does
nothing. -/
theorem failed_plugin_registered :
    ∃ manager, ({ } : PluginManager).loadPlugin false withoutProgOptions "example" =
        (manager, some (.pluginLoadError
          "An error occurred while loading dynamic plugin example: undefined symbol")) ∧
      manager.fPluginFactories "example" =
        some (.imported (.library "." "FairMQPlugin_example")) ∧
      manager.fPluginOrder = [] ∧
      manager.loadPlugin false (fun _ => { }) "example" = (manager, none) :=
  ⟨_, rfl, rfl, rfl, rfl⟩

end FairMQ.Plugins
