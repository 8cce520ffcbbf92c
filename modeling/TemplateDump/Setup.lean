import TemplateDump.Registry.Basic

/-!
# Setups

What a dump is made with is its setup: the registry of extension nodes and the options. A setup is
brought about by a sequence of operations, among them the application of a configuration, and the
sequence can be taken in parts (`Setup.run_append`).
-/

namespace TemplateDump

/-! ## Options and configurations -/

/-- What the writer of a dump can choose. -/
structure Options where
  /-- Whether the diagnostics of a node are shown at the end of its line. -/
  includeDiagnostics : Bool := true
deriving DecidableEq, Inhabited

/-- The contents of a configuration file. What the file leaves open stays as it is. -/
structure DumpConfig where
  version : Nat := 1
  includeDiagnostics : Option Bool := none
  trustedModules : List String := []
deriving DecidableEq, Inhabited

/-- A registry and options. -/
structure Setup where
  registry : Registry := {}
  options : Options := {}

/-- Applies a configuration: sets the option if the configuration does, and trusts its modules. -/
def Setup.configure (setup : Setup) (config : DumpConfig) : Setup where
  registry := setup.registry.trustAll config.trustedModules
  options := { includeDiagnostics :=
    config.includeDiagnostics.getD setup.options.includeDiagnostics }

/-! ## Operations -/

/-- An operation on a setup. A registration brings a function of its package; only the package of
components has the renderers of its own classes, and registers them all at once. -/
inductive SetupOperation where
  | register (label : String) (moduleName : String)
      (render : Option (ExtensionNode → List Field))
  | registerInternal (label : String) (moduleName : String := languageModule)
  | registerComponents
  | trust (moduleName : String)
  | setPolicy (policy : Option TrustPolicy)
  | configure (config : DumpConfig)

/-- The shape that an operation asks to register, if it is a single registration. -/
def SetupOperation.shape? : SetupOperation → Option Shape
  | .register label moduleName render =>
    some ⟨label, moduleName, .external (render.map .custom)⟩
  | .registerInternal label moduleName => some ⟨label, moduleName, .internal⟩
  | _ => none

/-- Carries out an operation. -/
def Setup.apply (setup : Setup) : SetupOperation → Setup
  | .register label moduleName render =>
    { setup with
      registry :=
        (setup.registry.register ⟨label, moduleName, .external (render.map .custom)⟩).2 }
  | .registerInternal label moduleName =>
    { setup with registry := (setup.registry.register ⟨label, moduleName, .internal⟩).2 }
  | .registerComponents => { setup with registry := setup.registry.registerComponents }
  | .trust moduleName => { setup with registry := setup.registry.trust moduleName }
  | .setPolicy policy => { setup with registry := { setup.registry with policy := policy } }
  | .configure config => setup.configure config

/-- Whether an operation registers a label that has no shape yet. -/
def Setup.registersFresh (setup : Setup) (operation : SetupOperation) : Bool :=
  match operation.shape? with
  | some shape => (setup.registry.register shape).1
  | none => false

/-- Carries out operations one after the other. -/
def Setup.run (setup : Setup) (operations : List SetupOperation) : Setup :=
  operations.foldl Setup.apply setup

/-- A sequence of operations can be carried out in two parts. -/
theorem Setup.run_append (setup : Setup) (first second : List SetupOperation) :
    setup.run (first ++ second) = (setup.run first).run second :=
  List.foldl_append

end TemplateDump
