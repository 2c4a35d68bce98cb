import Symbolizer.Options
import Symbolizer.Pe.Image
import Symbolizer.Satellite
import Symbolizer.Session
import Symbolizer.Sink

/-!
Resolution of addresses against one image. The caller's addresses are moved from the base the image
was loaded at to the base it declares, when both are known. Every address yields at least one
report: its frames, or that no unit knows it, or that the image has no debug information.
-/

namespace Symbolizer

structure Surroundings where
  files : FileSystem
  demanglers : Mangling.Demanglers

namespace Resolve

def namingOf (demanglers : Mangling.Demanglers) (options : Options) : Naming :=
  ⟨options.demangle, demanglers⟩

/-- The distance from the caller's addresses to those of the debug information. -/
def normalizationDelta (declared : Option UInt64) (loadBase : Address) : Int64 :=
  match declared with
  | some declared =>
    if declared = 0 ∨ loadBase.isZero then 0 else (declared - loadBase.value).toInt64
  | none => 0

def announcement (module : String) (loadBase : Address) : List FrameReport :=
  if loadBase.isZero then [] else [⟨loadBase, some module, .baseAddress⟩]

def reportOfFrame (module : String) (address : Address) (frame : LogicalFrame) : FrameReport :=
  ⟨address, some module,
    match frame.location with
    | some location => .resolved location frame.function
    | none => .noSourceFile⟩

/-- The first frame carries the caller's address, the others none. -/
def reportsOfFrames (module : String) (address : Address) : List LogicalFrame → List FrameReport
  | [] => []
  | frame :: outer =>
    reportOfFrame module address frame :: outer.map (reportOfFrame module Address.zero)

structure DebugSource where
  session : Session
  declaredBase : Option UInt64

def reportsOfLookup (module : String) (address : Address) : Lookup → List FrameReport
  | .notFound => [⟨address, some module, .notFound⟩]
  | .found frames => reportsOfFrames module address frames

def reportsAt (module : String) (loadBase : Address) (source : Option DebugSource)
    (address : Address) : List FrameReport × Option DebugSource :=
  match source with
  | some ⟨session, declaredBase⟩ =>
    let delta := normalizationDelta declaredBase loadBase
    let (found, session) := session.serve (address.offsetBy delta).value
    (reportsOfLookup module address found, some ⟨session, declaredBase⟩)
  | none => ([⟨address, some module, .noDebugSymbols⟩], none)

/-- Offers the reports of each address in turn, and hands what `reportsOf` keeps from one address on
to the next. An address counts when its last report was answered with a wish for more. -/
def emit (sink : Sink σ) (reportsOf : ρ → Address → List FrameReport × ρ) :
    ρ → Progress σ → List Address → Progress σ
  | _, progress, [] => progress
  | kept, progress, address :: rest =>
    let (reports, kept) := reportsOf kept address
    match sink.feed progress.state reports with
    | (state, .more) => emit sink reportsOf kept ⟨state, progress.processed + 1, .more⟩ rest
    | (state, .stop) => ⟨state, progress.processed, .stop⟩

def run (sink : Sink σ) (source : Option DebugSource) (module : String) (loadBase : Address)
    (announce : Bool) (state : σ) (addresses : List Address) : Progress σ :=
  match sink.feed state (if announce then announcement module loadBase else []) with
  | (state, .stop) => ⟨state, 0, .stop⟩
  | (state, .more) => emit sink (reportsAt module loadBase) source ⟨state, 0, .more⟩ addresses

def sourceOf? (naming : Naming) (object : ObjectFile) : Option DebugSource :=
  match Session.load object naming with
  | .ok session => some ⟨session, object.declaredBase⟩
  | .error _ => none

def satellite? (files : FileSystem) (options : Options) (primary : Pe.Image) : Option Pe.Image := do
  guard options.followDebugLink
  let link ← primary.object.debugLink?
  let path ← Satellite.locate? files primary.path link options.debugDirs
  (Pe.Image.open files path).toOption

/-- The debug information of the file at a path: its own, else that of its satellite. -/
def sourceOfFile? (outside : Surroundings) (options : Options) (path : String) :
    Option DebugSource := do
  let naming := namingOf outside.demanglers options
  let primary ← (Pe.Image.open outside.files path).toOption
  match sourceOf? naming primary.object with
  | some source => return source
  | none => sourceOf? naming (← satellite? outside.files options primary).object

end Resolve

open Resolve

/-- Resolves addresses against an object; `name` labels the reports. Without addresses nothing is read. -/
def resolveObject (demanglers : Mangling.Demanglers) (options : Options) (object : ObjectFile)
    (name : String) (loadBase : Address) (sink : Sink σ) (state : σ) (addresses : List Address) :
    Progress σ :=
  if addresses.isEmpty then ⟨state, 0, .more⟩
  else run sink (sourceOf? (namingOf demanglers options) object) name loadBase true state addresses

/-- Resolves addresses against the file at a path. Without addresses no file is opened. -/
def resolveFile (outside : Surroundings) (options : Options) (path : String) (loadBase : Address)
    (announce : Bool) (sink : Sink σ) (state : σ) (addresses : List Address) : Progress σ :=
  if addresses.isEmpty then ⟨state, 0, .more⟩
  else run sink (sourceOfFile? outside options path) path loadBase announce state addresses

end Symbolizer
