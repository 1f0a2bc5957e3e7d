import Custody.Manager.Command

set_option autoImplicit false

/-! # Sites

Several managers and bare lock holders, by name, that share one world. A site goes on by steps: a
manager is started or dropped, a command is given to one, a directory is locked or released by a
bare holder, or a clock is set. -/

namespace Custody

/-- Managers and lock holders in one world. -/
structure Site (W : Type) where
  world : World
  managers : List (String × Manager W)
  locks : List (String × DirectoryLock)

/-- What can happen at a site. -/
inductive SiteStep (W : Type)
  | start (manager : String) (config : Config) (clock : Clock)
  | drop (manager : String)
  | command (manager : String) (command : Command W)
  | acquire (holder : String) (dir : Path)
  | release (holder : String)
  | setTime (clock : Clock) (time : Instant)

namespace Site

variable {W : Type}

/-- A site without managers and lock holders. -/
def empty (world : World) : Site W := ⟨world, [], []⟩

/-- The manager of a name. -/
def manager? (site : Site W) (name : String) : Option (Manager W) := site.managers.lookup name

/-- The lock that a bare holder has. -/
def lock? (site : Site W) (name : String) : Option DirectoryLock := site.locks.lookup name

/-- Take the entries of a name out of a list. -/
def without {α : Type} (name : String) (entries : List (String × α)) : List (String × α) :=
  entries.filter (·.1 != name)

/-- Put a manager under a name. -/
def putManager (site : Site W) (name : String) (manager : Manager W) : Site W :=
  { site with managers := (name, manager) :: without name site.managers }

/-- Drop the manager of a name, if there is one. -/
def drop (site : Site W) (name : String) : Site W :=
  match site.manager? name with
  | none => site
  | some manager =>
    let (_, world) := manager.drop.outcome site.world
    { site with world, managers := without name site.managers }

/-- Release the lock that a bare holder has, if it has one. -/
def release (site : Site W) (name : String) : Site W :=
  match site.lock? name with
  | none => site
  | some lock =>
    let (_, world) := lock.release.outcome site.world
    { site with world, locks := without name site.locks }

/-- Start a manager; one of the same name is dropped first. -/
def start [Suite] [Backend W] (site : Site W) (name : String) (config : Config) (clock : Clock) :
    Except Error Unit × Site W :=
  let site := site.drop name
  match (Manager.start config clock).outcome site.world with
  | (.ok manager, world) => (.ok (), { site with world }.putManager name manager)
  | (.error error, world) => (.error error, { site with world })

/-- Lock a directory for a bare holder, which gives its earlier lock back afterwards. -/
def acquire (site : Site W) (name : String) (dir : Path) : Except Error Path × Site W :=
  match (DirectoryLock.acquire dir).outcome site.world with
  | (.ok lock, world) =>
    let site := { site with world }.release name
    (.ok lock.marker, { site with locks := (name, lock) :: site.locks })
  | (.error error, world) => (.error error, { site with world })

variable [Suite] [SoftBackend W]

/-- Give a command to a manager that is there; the requests to wallets that it makes are part of the
    answer. -/
def command (site : Site W) (name : String) (command : Command W) :
    Option ((Except Error Reply × List Event) × Site W) :=
  (site.manager? name).map fun manager =>
    let (result, scene) := command.perform.outcome ⟨manager, site.world, []⟩
    ((result, scene.trace), { site with world := scene.world }.putManager name scene.manager)

/-- The site after a step. -/
def step (site : Site W) : SiteStep W → Site W
  | .start name config clock => (site.start name config clock).2
  | .drop name => site.drop name
  | .command name command =>
    match site.command name command with
    | some (_, site) => site
    | none => site
  | .acquire name dir => (site.acquire name dir).2
  | .release name => site.release name
  | .setTime clock time =>
    let read (c : Clock) : Instant := if c = clock then time else site.world.time c
    { site with world := { site.world with time := read } }

/-- The site after several steps. -/
def run (site : Site W) (steps : List (SiteStep W)) : Site W := steps.foldl step site

end Site

end Custody
