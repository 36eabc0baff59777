import Flowfile.Library.Dictionaries
import Flowfile.Library.EventRuns
import Flowfile.Library.ExclusiveClaims
import Flowfile.Library.PythonText

/-!
# Kernels

The kernel manager keeps a registry of kernels. A kernel runs in a container that answers on a port
of the host, from a base image or, with packages of its own, from an image derived for it. Creating
a kernel chooses its port, builds its image and then enters it into the registry; starting it builds
the image where it is missing, runs a container and waits until that is healthy. Calls are
interrupted at their awaits and where they release the registry's lock, and other calls come in
between. The rows that a reconciliation reads from the database are any rows.

Ports, derived images and the containers of other starts are left alone along every run in which no
port is handed out that a create call waits to register, no two kernels have ids with one image tag,
no base image is itself a derived one, and no kernel is started twice at a time.
-/

namespace Flowfile.KernelManager

open Library.Dictionaries Library.EventRuns Library.ExclusiveClaims
open Library.PythonText (strip)

inductive KernelState where
  | stopped
  | starting
  | idle
  | executing
  | error
deriving DecidableEq

inductive ImageFlavour where
  | base
  | ml
  | lite
  | custom

def ImageFlavour.value : ImageFlavour → String
  | .base => "base"
  | .ml => "ml"
  | .lite => "lite"
  | .custom => "custom"

structure KernelSettings where
  packages : List String
  imageFlavour : ImageFlavour
  customImage : Option String

structure KernelConfig extends KernelSettings where
  id : String

structure KernelInfo extends KernelConfig where
  state : KernelState
  containerId : Option Nat
  port : Option Nat
  image : Option String

def KernelInfo.ofConfig (config : KernelConfig) (port : Option Nat) : KernelInfo :=
  { config with state := .stopped, containerId := none, port, image := none }

/-- A character of an id in lower case, or `-` where tags cannot have it. Two characters outside
ASCII have letters of ASCII in lower case, one of them followed by a mark. -/
def slugChar (c : Char) : List Char :=
  if c = '\u0130' then ['i', '-']
  else if c = '\u212a' then ['k']
  else
    let lower := c.toLower
    if lower.isLower || lower.isDigit || lower = '.' || lower = '_' || lower = '-' then [lower]
    else ['-']

def derivedPrefix : String := "flowfile-kernel-derived-"

def derivedImageTag (kernelId : String) : String :=
  derivedPrefix ++ .ofList (kernelId.toList.flatMap slugChar) ++ ":latest"

example : derivedImageTag "My Kernel!" = derivedImageTag "my-kernel-" := by decide

/-- The tag has the form of one that was derived. -/
def isDerivedImage (image : String) : Bool :=
  derivedPrefix.toList.isPrefixOf image.toList

def isValidPackage (pkg : String) : Bool :=
  pkg ≠ "" && pkg.toList.all fun c => c.isAlphanum || c ∈ "_.-+[]<>=!~,".toList

def validatePackages (packages : List String) : Bool :=
  packages.all isValidPackage

def isHexDigit (c : Char) : Bool :=
  c.isDigit || ('a' ≤ c && c ≤ 'f') || ('A' ≤ c && c ≤ 'F')

def endsInDigest (ref : List Char) : Bool :=
  let digits := ref.reverse.takeWhile isHexDigit
  12 ≤ digits.length && "@sha256:".toList.reverse.isPrefixOf (ref.reverse.drop digits.length)

def isValidTag : List Char → Bool
  | [] => false
  | first :: rest => (first.isAlphanum || first = '_') && rest.length ≤ 127 &&
      rest.all fun c => c.isAlphanum || c = '_' || c = '.' || c = '-'

def validateCustomImage (uri : String) : Bool :=
  let ref := (strip uri).toList
  let lastSegment := (ref.reverse.takeWhile (· ≠ '/')).reverse
  ref ≠ [] && (endsInDigest ref || isValidTag ((lastSegment.dropWhile (· ≠ ':')).drop 1))

def resolveLocalImage (flavour : ImageFlavour) (images : List String) (registryDefault : String) :
    Option String :=
  let repoName := "flowfile-kernel-" ++ flavour.value
  if registryDefault ∈ images then some registryDefault
  else if repoName ++ ":local" ∈ images then some (repoName ++ ":local")
  else images.find? fun tag => (repoName ++ ":").toList.isPrefixOf tag.toList

def resolveImage (flavourImages : ImageFlavour → String) (settings : KernelSettings)
    (images : List String) : Option String :=
  match settings.imageFlavour with
  | .custom => settings.customImage.filter validateCustomImage
  | flavour =>
    some ((resolveLocalImage flavour images (flavourImages flavour)).getD (flavourImages flavour))

def basePort : Nat := 19000
def portRange : Nat := 1000

structure Container where
  number : Nat
  kernel : String
  creator : Nat

inductive Call where
  | finished
  /-- `create_kernel` has a port. -/
  | preparing (kernel user : Nat)
  | baking (kernel user : Nat)
  | inspecting (kernel user : Nat)
  /-- `start_kernel` derives the image. -/
  | building (kernel : Nat)
  | allocating (kernel : Nat) (image : String)
  | launching (kernel : Nat) (image : String)
  | waiting (kernel : Nat)
  /-- `update_kernel` derives the image anew, and keeps the packages there were. -/
  | rebuilding (kernel : Nat) (oldPackages : List String)
  | restoring (kernel : Nat)
  | resolving (kernel : Nat)
  /-- `delete_kernel` has taken the kernel out of the registry. -/
  | deleting (kernel : Nat) (hadPackages : Bool)

/-- The registry with the kernels, by number, that it has ever had, the host's containers and
images, and the calls. What the manager did to images, and which containers failed starts removed,
is noted. -/
structure Manager where
  /-- Kernels are reached inside the container network and get no ports. -/
  kernelVolume : Bool
  flavourImages : ImageFlavour → String
  kernels : Nat → KernelInfo
  made : Nat
  registry : Dictionary String Nat
  owners : Dictionary String Nat
  containers : List Container
  launched : Nat
  images : List String
  calls : Nat → Call
  called : Nat
  /-- Ids of kernels with the images that were built, run or removed for them. -/
  used : List (String × String)
  /-- Starts that failed with the calls that had created the containers they removed. -/
  cleaned : List (Nat × Nat)

def Manager.initial (kernelVolume : Bool) (flavourImages : ImageFlavour → String)
    (images : List String) : Manager where
  kernelVolume
  flavourImages
  kernels _ :=
    .ofConfig { packages := [], imageFlavour := .base, customImage := none, id := "" } none
  made := 0
  registry := .empty
  owners := .empty
  containers := []
  launched := 0
  images
  calls _ := .finished
  called := 0
  used := []
  cleaned := []

/-- What the host answers to one step: which ports are free, and whether the image could be built,
the container be run or was healthy in time. -/
structure Outside where
  free : Nat → Bool
  ok : Bool

namespace Manager

variable (manager : Manager)

def edit (kernel : Nat) (change : KernelInfo → KernelInfo) : Manager :=
  { manager with
    kernels := Function.update manager.kernels kernel (change (manager.kernels kernel)) }

def move (call : Nat) (next : Call) : Manager :=
  { manager with calls := Function.update manager.calls call next }

/-- A new call, which holds a kernel. -/
def enter (next : Call) : Manager :=
  { manager.move manager.called next with called := manager.called + 1 }

def use (kernelId image : String) : Manager :=
  { manager with used := manager.used ++ [(kernelId, image)] }

/-- A new kernel, not in the registry yet. -/
def make (kernel : KernelInfo) : Manager :=
  { manager with
    kernels := Function.update manager.kernels manager.made kernel
    made := manager.made + 1 }

def usedPorts : List Nat :=
  manager.registry.entries.filterMap fun entry => (manager.kernels entry.2).port

def allocatePort (free : Nat → Bool) : Option Nat :=
  (List.range' basePort portRange).find? fun port =>
    decide (port ∉ manager.usedPorts) && free port

def baseImage (kernel : Nat) : Option String :=
  resolveImage manager.flavourImages (manager.kernels kernel).toKernelSettings manager.images

def buildDerivedImage (kernel : Nat) (ok : Bool) : Option Manager :=
  let id := (manager.kernels kernel).id
  if validatePackages (manager.kernels kernel).packages then
    match manager.baseImage kernel with
    | none => none
    | some base =>
      if derivedImageTag id ∈ manager.images then some (manager.use id (derivedImageTag id))
      else if base ∈ manager.images && ok then
        some { manager with
          images := manager.images ++ [derivedImageTag id]
          used := manager.used ++ [(id, base), (id, derivedImageTag id)] }
      else none
  else none

variable (id : String)

def removeDerivedImage : Manager :=
  { manager.use id (derivedImageTag id) with
    images := manager.images.filter (· ≠ derivedImageTag id) }

def containerOf : Option Nat :=
  (manager.registry.get id).bind fun kernel => (manager.kernels kernel).containerId

def cleanupContainer : Manager :=
  { manager with
    containers := manager.containers.filter fun container =>
      some container.number ≠ manager.containerOf id }

def createKernel (config : KernelConfig) (user : Nat) (free : Nat → Bool) : Manager :=
  match manager.registry.get config.id with
  | some _ => manager
  | none =>
    if manager.kernelVolume then
      (manager.make (.ofConfig config none)).enter (.preparing manager.made user)
    else
      match manager.allocatePort free with
      | none => manager
      | some port =>
        (manager.make (.ofConfig config (some port))).enter (.preparing manager.made user)

/-- The registry is checked again before the kernel goes in. -/
def register (call kernel user : Nat) : Manager :=
  match manager.registry.get (manager.kernels kernel).id with
  | some _ => manager.move call .finished
  | none =>
    { manager.move call .finished with
      registry := manager.registry.set (manager.kernels kernel).id kernel
      owners := manager.owners.set (manager.kernels kernel).id user }

def prepare (call kernel user : Nat) : Manager :=
  if (manager.baseImage kernel).isSome && validatePackages (manager.kernels kernel).packages then
    if (manager.kernels kernel).packages = [] then manager.register call kernel user
    else manager.move call (.baking kernel user)
  else manager.move call .finished

def bake (call kernel user : Nat) (ok : Bool) : Manager :=
  match manager.buildDerivedImage kernel ok with
  | none => manager.move call .finished
  | some built => built.move call (.inspecting kernel user)

/-- A container is run from the image to list its packages. -/
def inspect (call kernel user : Nat) : Manager :=
  let id := (manager.kernels kernel).id
  (manager.use id (derivedImageTag id)).register call kernel user

def startKernel : Manager :=
  match manager.registry.get id with
  | none => manager
  | some kernel =>
    if (manager.kernels kernel).state = .idle then manager
    else
      match manager.baseImage kernel with
      | none => manager
      | some base =>
        if base ∈ manager.images then
          if (manager.kernels kernel).packages = [] then manager.enter (.allocating kernel base)
          else manager.enter (.building kernel)
        else manager.edit kernel fun info => { info with state := .error }

variable (call kernel : Nat) (ok : Bool)

def build : Manager :=
  match manager.buildDerivedImage kernel ok with
  | none => (manager.edit kernel fun info => { info with state := .error }).move call .finished
  | some built =>
    built.move call (.allocating kernel (derivedImageTag (manager.kernels kernel).id))

def allocate (image : String) (free : Nat → Bool) : Manager :=
  let chosen := manager.edit kernel fun info => { info with image := some image }
  if (manager.kernels kernel).port = none ∧ manager.kernelVolume = false then
    match manager.allocatePort free with
    | none => chosen.move call .finished
    | some port => (chosen.edit kernel fun info => { info with port := some port }).move call
        (.launching kernel image)
  else chosen.move call (.launching kernel image)

def failStart : Manager :=
  let id := (manager.kernels kernel).id
  let removed := manager.containers.filter fun container =>
    some container.number = manager.containerOf id
  { ((manager.edit kernel fun info => { info with state := .error }).cleanupContainer id).move call
      .finished with
    cleaned := manager.cleaned ++ removed.map fun container => (call, container.creator) }

def runContainer : Manager :=
  { manager.edit kernel (fun info => { info with containerId := some manager.launched }) with
    containers := manager.containers ++ [{
      number := manager.launched, kernel := (manager.kernels kernel).id, creator := call }]
    launched := manager.launched + 1 }

/-- The name of a container is taken as long as there is one for the kernel's id. The wait for it
looks the kernel up once more. -/
def launch (image : String) (ok : Bool) : Manager :=
  let id := (manager.kernels kernel).id
  let starting := (manager.edit kernel fun info => { info with state := .starting }).use id image
  if manager.containers.any (·.kernel = id) || !ok then starting.failStart call kernel
  else
    match manager.registry.get id with
    | none => (starting.runContainer call kernel).move call .finished
    | some _ => (starting.runContainer call kernel).move call (.waiting kernel)

def wait : Manager :=
  if ok then (manager.edit kernel fun info => { info with state := .idle }).move call .finished
  else manager.failStart call kernel

def stopKernel : Manager :=
  match manager.registry.get id with
  | none => manager
  | some kernel => (manager.cleanupContainer id).edit kernel fun info =>
      { info with state := .stopped, containerId := none }

def updateKernel (packages : List String) : Manager :=
  match manager.registry.get id with
  | none => manager
  | some kernel =>
    let info := manager.kernels kernel
    if info.state = .idle ∨ info.state = .executing ∨ info.state = .starting then manager
    else if !validatePackages packages then manager
    else if packages = info.packages then manager
    else
      let changed := manager.edit kernel fun info => { info with packages := packages }
      let cleared := if info.packages = [] then changed else changed.removeDerivedImage id
      if packages = [] then cleared else cleared.enter (.rebuilding kernel info.packages)

def rebuild (oldPackages : List String) (ok : Bool) : Manager :=
  match manager.buildDerivedImage kernel ok with
  | some built => built.move call (.resolving kernel)
  | none =>
    (manager.edit kernel fun info => { info with packages := oldPackages }).move call
      (if oldPackages = [] then .finished else .restoring kernel)

def restore : Manager :=
  ((manager.buildDerivedImage kernel ok).getD manager).move call .finished

def resolve : Manager :=
  let id := (manager.kernels kernel).id
  (manager.use id (derivedImageTag id)).move call .finished

/-- Take a kernel out of the registry. -/
def forget : Manager :=
  { manager with registry := manager.registry.erase id, owners := manager.owners.erase id }

def deleteKernel : Manager :=
  match manager.registry.get id with
  | none => manager
  | some kernel =>
    let info := manager.kernels kernel
    let stopped := if info.state = .idle ∨ info.state = .executing then manager.stopKernel id
      else manager
    (stopped.forget id).enter (.deleting kernel (info.packages ≠ []))

def discard (hadPackages : Bool) : Manager :=
  let finished := manager.move call .finished
  if hadPackages then finished.removeDerivedImage (manager.kernels kernel).id else finished

/-- A kernel that is not in the database any more. -/
def drop : Manager :=
  (manager.cleanupContainer id).forget id

/-- A row of the database comes into the registry, or refreshes a kernel that is stopped. -/
def adopt (settings : KernelSettings) (user : Nat) : Manager :=
  match manager.registry.get id with
  | none =>
    { manager.make (.ofConfig { settings with id } none) with
      registry := manager.registry.set id manager.made
      owners := manager.owners.set id user }
  | some kernel =>
    if (manager.kernels kernel).state = .stopped then
      { manager.edit kernel (fun info => { info with toKernelSettings := settings }) with
        owners := manager.owners.set id user }
    else manager

def reconcile (owner : Option Nat) (allRows : Dictionary String (KernelSettings × Nat)) : Manager :=
  let rows := allRows.keep fun _ row => owner = none || owner = some row.2
  let pruned := (manager.registry.entries.map Prod.fst).filter fun id =>
    (rows.get id).isNone && (owner = none || manager.owners.get id = owner)
  rows.entries.foldl (fun manager row => manager.adopt row.1 row.2.1 row.2.2)
    (pruned.foldl drop manager)

end Manager

inductive Request where
  | create (config : KernelConfig) (user : Nat)
  | start (id : String)
  | stop (id : String)
  | update (id : String) (packages : List String)
  | delete (id : String)
  | reconcile (owner : Option Nat) (rows : Dictionary String (KernelSettings × Nat))

inductive Event where
  /-- A request comes in and its call runs up to its first interruption. -/
  | request (request : Request) (outside : Outside)
  | proceed (call : Nat) (outside : Outside)
  /-- An image comes to the host. -/
  | pull (image : String)

def Manager.serve (manager : Manager) (outside : Outside) : Request → Manager
  | .create config user => manager.createKernel config user outside.free
  | .start id => manager.startKernel id
  | .stop id => manager.stopKernel id
  | .update id packages => manager.updateKernel id packages
  | .delete id => manager.deleteKernel id
  | .reconcile owner rows => manager.reconcile owner rows

def Manager.proceed (manager : Manager) (call : Nat) (outside : Outside) : Manager :=
  match manager.calls call with
  | .finished => manager
  | .preparing kernel user => manager.prepare call kernel user
  | .baking kernel user => manager.bake call kernel user outside.ok
  | .inspecting kernel user => manager.inspect call kernel user
  | .building kernel => manager.build call kernel outside.ok
  | .allocating kernel image => manager.allocate call kernel image outside.free
  | .launching kernel image => manager.launch call kernel image outside.ok
  | .waiting kernel => manager.wait call kernel outside.ok
  | .rebuilding kernel oldPackages => manager.rebuild call kernel oldPackages outside.ok
  | .restoring kernel => manager.restore call kernel outside.ok
  | .resolving kernel => manager.resolve call kernel
  | .deleting kernel hadPackages => manager.discard call kernel hadPackages

def Manager.step (manager : Manager) : Event → Manager
  | .request request outside => manager.serve outside request
  | .proceed call outside => manager.proceed call outside
  | .pull image => { manager with images := manager.images ++ [image] }

/-- No two registered kernels hold one port, no derived image was used or removed for kernels with
different ids, and failed starts removed only containers they had created themselves. -/
structure Manager.Separate (manager : Manager) : Prop where
  ports : ∀ id other kernel rival port, manager.registry.get id = some kernel →
    manager.registry.get other = some rival → (manager.kernels kernel).port = some port →
    (manager.kernels rival).port = some port → id = other
  images : ∀ use ∈ manager.used, ∀ other ∈ manager.used, use.2 = other.2 →
    isDerivedImage use.2 = true → use.1 = other.1
  containers : ∀ removal ∈ manager.cleaned, removal.1 = removal.2

def Call.creating : Call → Option Nat
  | .preparing kernel _ | .baking kernel _ | .inspecting kernel _ => some kernel
  | _ => none

def Call.starting : Call → Option Nat
  | .building kernel | .allocating kernel _ | .launching kernel _ | .waiting kernel => some kernel
  | _ => none

namespace Manager

variable (manager : Manager)

/-- No create call waits with a port that could be handed out again. -/
def PortsSettled (free : Nat → Bool) : Prop :=
  ∀ call kernel port, (manager.calls call).creating = some kernel →
    (manager.kernels kernel).port = some port → port ∉ manager.usedPorts → free port = false

def FreshTag (id : String) : Prop :=
  ∀ kernel < manager.made, derivedImageTag (manager.kernels kernel).id = derivedImageTag id →
    (manager.kernels kernel).id = id

def PlainBase (kernel : Nat) : Prop :=
  ∀ base, manager.baseImage kernel = some base → isDerivedImage base = false

/-- Ports are handed out while no create call waits with one of them, kernels come with image tags
of their own, images come from base images, and a kernel is started while no other start of it is
under way. -/
def Careful : Event → Prop
  | .request (.create config _) outside => manager.registry.get config.id = none →
      manager.FreshTag config.id ∧ manager.PortsSettled outside.free
  | .request (.start id) _ => ∀ kernel, manager.registry.get id = some kernel →
      (manager.kernels kernel).state ≠ .idle → manager.PlainBase kernel ∧
        ∀ call other, (manager.calls call).starting = some other → (manager.kernels other).id ≠ id
  | .request (.reconcile _ rows) _ => ∀ id, (rows.get id).isSome → manager.FreshTag id ∧
      ∀ other, (rows.get other).isSome → derivedImageTag other = derivedImageTag id → other = id
  | .request _ _ => True
  | .proceed call outside =>
    match manager.calls call with
    | .baking kernel _ | .building kernel | .rebuilding kernel _ | .restoring kernel =>
      manager.PlainBase kernel
    | .allocating _ _ => manager.PortsSettled outside.free
    | _ => True
  | .pull _ => True

end Manager

end Flowfile.KernelManager
