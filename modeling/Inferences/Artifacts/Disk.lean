import Inferences.Artifacts.Manifest
import Inferences.Program

/-!
# The operations of the installer

The installer works below its artifact root: the state of its world is what
stands there (`none` before the root exists), and paths start from it. An
operation is a look at a path, a change of what a path names, a rename, a
request to the network, or another service of the system.

An operation that fails answers with an error, or that the path does not
exist. It may have done a part of its work: a write may have written any prefix,
a recursive removal may have removed any part of the directory
(`Change.torn`).
-/

namespace Inferences.Artifacts

open Node

/-- A result of the system; its error says nothing more. -/
abbrev IoResult (α : Type) := Except Unit α

/-- What a directory entry is, links not followed. -/
inductive FileType
  | file
  | dir
  | symlink
  | other
  deriving DecidableEq

/-- The metadata of a directory entry, or of the file it leads to. -/
structure Metadata where
  file_type : FileType
  len : Nat

/-- What can be asked about a path. `read_tree` lists a directory, and all
    directories below it, with the content of the files. -/
inductive Query
  | symlink_metadata
  | metadata
  | path_exists
  | is_file
  | read
  | read_tree
  deriving DecidableEq

/-- What the answer to a query is. -/
@[reducible] def Query.Res : Query → Type
  | symlink_metadata | metadata => IoResult Metadata
  | path_exists | is_file => Bool
  | read => IoResult Bytes
  | read_tree => IoResult Node

/-- The changes of what a path names. `open_lock` creates a file that is not
    there. -/
inductive Change
  | create_dir
  | create_dir_all
  | open_lock
  | create
  | append (bytes : Bytes)
  | remove_dir_all
  | remove_file
  deriving DecidableEq

/-- The other services of the system: a lock, a flush of a file, the client of the
    network, and the readers of archives. -/
inductive Service
  | lock_exclusive
  | flush
  | sync_all
  | build_client
  | archive
  deriving DecidableEq

/-- An operation of the installer. -/
inductive Op
  | query (query : Query) (path : Path)
  | change (change : Change) (path : Path)
  | rename (source target : Path)
  | service (service : Service)
  | send (url : String)
  | recv (read : IoResult Bytes)
  deriving DecidableEq

/-- What the answer to an operation is. -/
@[reducible] def Op.Res : Op → Type
  | query q _ => q.Res
  | change .. | rename .. | service _ => IoResult Unit
  | send _ => IoResult Response
  | recv _ => IoResult Bytes

/-- The operation has no part in the network. -/
def Op.offline : Op → Prop
  | send _ | recv _ => False
  | _ => True

/-! ## What they do -/

/-- The type of what stands at a path. -/
def file_type : Node → FileType
  | .file _ => .file
  | .dir _ => .dir
  | .link _ | .dead_link => .symlink
  | .other => .other

/-- The length of a file. -/
def file_len : Node → Nat
  | .file content => content.length
  | _ => 0

/-- The answer to a query about what stands at the path. -/
def Query.answer (node : Option Node) : (q : Query) → q.Res
  | symlink_metadata => node.elim (.error ()) fun node => .ok ⟨file_type node, file_len node⟩
  | metadata => (node.bind follow).elim (.error ()) fun node => .ok ⟨file_type node, file_len node⟩
  | path_exists => (node.bind follow).isSome
  | is_file => match node.bind follow with
    | some (.file _) => true
    | _ => false
  | read => match node.bind follow with
    | some (.file content) => .ok content
    | _ => .error ()
  | read_tree => node.elim (.error ()) .ok

/-- The node with the content of the file it leads to changed. -/
def overwrite (f : Bytes → Bytes) : Node → Option Node
  | .file content => some (.file (f content))
  | .link target => (overwrite f target).map .link
  | .dead_link => some (.link (.file (f [])))
  | _ => none

/-- A file overwritten twice. -/
theorem overwrite_overwrite {f g : Bytes → Bytes} : (node : Node) → {node' : Node} →
    overwrite f node = some node' → overwrite g node' = overwrite (g ∘ f) node
  | .file _, _, h | .dead_link, _, h => by
    cases h
    rfl
  | .link target, node', h => by
    obtain ⟨target', htarget, rfl⟩ := Option.map_eq_some_iff.1 h
    rw [overwrite, overwrite_overwrite target htarget, overwrite]
  | .dir _, _, h | .other, _, h => by cases h

theorem overwrite_isSome (f g : Bytes → Bytes) :
    (node : Node) → (overwrite f node).isSome = (overwrite g node).isSome
  | .file _ | .dead_link | .dir _ | .other => rfl
  | .link target => by simp only [overwrite, Option.isSome_map, overwrite_isSome f g target]

/-- The change makes the directories above the path. -/
def Change.parents : Change → Bool
  | create_dir_all => true
  | _ => false

/-- What the change makes of what stands at the path, if it can be made. -/
def Change.act : Change → Option Node → Option (Option Node)
  | create_dir, none => some (some (.dir []))
  | create_dir, some _ => none
  | create_dir_all, none => some (some (.dir []))
  | create_dir_all, some node =>
    match node.follow with
    | some (.dir _) => some (some node)
    | _ => none
  | open_lock, none => some (some (.file []))
  | open_lock, some node => (overwrite id node).map some
  | create, none => some (some (.file []))
  | create, some node => (overwrite (fun _ => []) node).map some
  | append _, none => none
  | append bytes, some node => (overwrite (· ++ bytes) node).map some
  | remove_dir_all, some (.dir _) => some none
  | remove_dir_all, some (.link _) => some none
  | remove_dir_all, some .dead_link => some none
  | remove_dir_all, _ => none
  | remove_file, some (.dir _) => none
  | remove_file, some _ => some none
  | remove_file, none => none

/-- The tree after the change, if it can be made. -/
def Change.apply (change : Change) (path : Path) (s : Option Node) : Option (Option Node) :=
  alter change.parents change.act path s

/-- What a change that fails, or is cut short, may have done. -/
def Change.torn (path : Path) (s s' : Option Node) : Change → Prop
  | append bytes => ∃ part, part <+: bytes ∧ (append part).apply path s = some s'
  | create_dir_all => ∃ path', path' <+: path ∧ create_dir_all.apply path' s = some s'
  | remove_dir_all => ∃ entries node, find path s = some (.dir entries) ∧
      Pruned (.dir entries) node ∧ alter false (fun _ => some (some node)) path s = some s'
  | _ => False

/-- A rename can take the place of nothing, a directory that of an empty
    directory, and anything else that of anything but a directory. -/
def replaces (node : Node) : Option Node → Bool
  | none => true
  | some (.dir []) => file_type node = .dir
  | some (.dir _) => false
  | some _ => file_type node ≠ .dir

/-- The tree after a rename, if it can be made. -/
def rename_node (source target : Path) (s : Option Node) : Option (Option Node) :=
  if source = target then some s
  else do
    let node ← find source s
    if replaces node (find target s) then
      let s ← alter false (fun _ => some none) source s
      alter false (fun _ => some (some node)) target s
    else none

/-- The outcome of a change that may not be possible. -/
def done (s : Option Node) : Option (Option Node) → IoResult Unit × Option Node
  | some s' => (.ok (), s')
  | none => (.error (), s)

/-- An operation that does not fail: its answer, and the tree after it. -/
def exec (host : Host) (op : Op) (s : Option Node) : op.Res × Option Node :=
  match op with
  | .query q path => (q.answer (find path s), s)
  | .change c path => done s (c.apply path s)
  | .rename source target => done s (rename_node source target s)
  | .service _ => (.ok (), s)
  | .send url => (host.send url, s)
  | .recv read => (read, s)

/-- The answer of an operation that fails. -/
def failed : (op : Op) → op.Res
  | .query .symlink_metadata _ | .query .metadata _ => Except.error ()
  | .query .path_exists _ | .query .is_file _ => false
  | .query .read _ | .query .read_tree _ => Except.error ()
  | .change .. | .rename .. | .service _ | .send _ | .recv _ => Except.error ()

/-- What the tree may be after an operation that failed, or was cut short. -/
def torn (op : Op) (s s' : Option Node) : Prop :=
  s' = s ∨ match op with
    | .change c path => c.torn path s s'
    | _ => False

/-- The world the installer works on. -/
def machine (host : Host) : Machine Op.Res (Option Node) where
  exec := exec host
  failed
  torn

/-! ## The calls of the installer -/

/-- A program of the installer. -/
abbrev Io := Program Op.Res ArtifactError

/-- `?`, on a result of the system. -/
def fs {α : Type} : IoResult α → Io α
  | .ok a => pure a
  | .error () => throw .Filesystem

/-- `?`, on a result of the program. -/
def lift {α : Type} : Except ArtifactError α → Io α := .done

/-- `if condition { return Err(error) }`. -/
def fail_if (condition : Bool) (error : ArtifactError) : Io Unit :=
  lift (if condition then .error error else .ok ())

/-- `let _ = ..`, on a result of the system. -/
def ignore (p : Io Unit) : Io Unit := do
  let _ : Except ArtifactError Unit ← p.attempt

def symlink_metadata (path : Path) : Io Metadata := .call (.query .symlink_metadata path) fs

def metadata (path : Path) : Io Metadata := .call (.query .metadata path) fs

def path_exists (path : Path) : Io Bool := .call (.query .path_exists path) pure

def is_file (path : Path) : Io Bool := .call (.query .is_file path) pure

def read (path : Path) : Io Bytes := .call (.query .read path) fs

def read_tree (path : Path) : Io Node := .call (.query .read_tree path) fs

def change (change : Change) (path : Path) : Io Unit := .call (.change change path) fs

def rename (source target : Path) : Io Unit := .call (.rename source target) fs

def service (service : Service) : Io Unit := .call (.service service) fs

end Inferences.Artifacts
