import SimplexAgent.Verified.Faults

/-!
# The installation transaction

`InstallationTransaction` of `install/transaction.ts`: a verified tree replaces the tree at the
destination, under a lock that is held for the whole transaction.

The files are the trees in play, the attempt directories under the work directory, and the
journal. A tree is the list of its entries. A rename, the removal of one entry and the publication
of the journal are single operations. The removal of a tree is not: when it does not get to its
end, some of the entries are left, and possibly the directory itself.

`published` is what the transactions promise about the destination: the tree that was there in
the beginning, or the one whose publication was the last to be committed, by the removal of the
journal in `replace`. It also counts these removals. No operation of the program reads it.

The lock and the permissions of the work directory appear as operations that may fail. The
temporary file of `atomicWrite` has a name of its own and is not among the files here.
-/

namespace SimplexAgent.Hub.Install

open Verified.Interruptible Verified.Faults

/-- Where a tree may be. The trees of an attempt are in its directory, those of no attempt
directly in the work directory, where older revisions had them. -/
inductive Slot (Id : Type) where
  | destination
  /-- The verified tree of an attempt, before it is prepared. -/
  | unpacked (attempt : Id)
  | prepared (attempt : Option Id)
  | previous (attempt : Option Id)
  deriving DecidableEq

namespace Slot

def attempt? {Id : Type} : Slot Id → Option Id
  | destination => none
  | unpacked attempt => some attempt
  | prepared attempt => attempt
  | previous attempt => attempt

end Slot

/-- What `transaction.json` holds. -/
inductive Journal (Id : Type) where
  | unreadable
  | record (hadDestination : Bool) (attempt : Option Id)

/-- What is left of the trees whose removal did not get to its end. -/
abbrev Left (Id Entry : Type) := Slot Id → Option (List Entry)

/-- The tree that was published last, and the number of publications. -/
structure Publication (Entry : Type) where
  tree : Option (List Entry)
  number : Nat

structure Files (Id Entry : Type) where
  trees : Slot Id → Option (List Entry)
  /-- The attempt directories. -/
  attempts : List Id
  journal : Option (Journal Id)
  published : Publication Entry

/-- The errors of the transaction. -/
inductive Fault (ε : Type) where
  | system (e : ε)
  | missing
  | notEmpty
  | alreadyExists
  | invalidJournal
  | cannotRecover
  | rollbackFailed (error rollback : Fault ε)

variable {Id Entry ε : Type} [DecidableEq Id] [DecidableEq Entry]

abbrev Installer (Id Entry ε : Type) := Work (Files Id Entry) (Fault ε) (Left Id Entry)

namespace Files

def cutTree (left : Option (List Entry)) (tree : Option (List Entry)) : Option (List Entry) :=
  tree.bind fun entries => left.map fun kept => entries.filter (· ∈ kept)

def setTree (s : Files Id Entry) (slot : Slot Id) (tree : Option (List Entry)) :
    Files Id Entry :=
  { s with trees := Function.update s.trees slot tree }

/-- `rename` of a directory: the target must not hold anything. -/
def rename (source target : Slot Id) (s : Files Id Entry) :
    Except (Fault ε) Unit × Files Id Entry :=
  match s.trees source with
  | none => (.error .missing, s)
  | some tree =>
    if (s.trees target).any fun entries => !entries.isEmpty then (.error .notEmpty, s)
    else (.ok (), (s.setTree source none).setTree target (some tree))

/-- `rm` of a tree, recursive and forced. -/
def removeTree (slot : Slot Id) (s : Files Id Entry) : Except (Fault ε) Unit × Files Id Entry :=
  (.ok (), s.setTree slot none)

def removePart (slot : Slot Id) (left : Left Id Entry) (s : Files Id Entry) : Files Id Entry :=
  s.setTree slot (cutTree (left slot) (s.trees slot))

/-- `rm` of the journal. -/
def removeJournal (s : Files Id Entry) : Except (Fault ε) Unit × Files Id Entry :=
  if s.journal.isSome then (.ok (), { s with journal := none }) else (.error .missing, s)

/-- `rm` of the journal that commits a publication. -/
def commit (s : Files Id Entry) : Except (Fault ε) Unit × Files Id Entry :=
  if s.journal.isSome then
    (.ok (), { s with
      journal := none
      published := ⟨s.trees .destination, s.published.number + 1⟩ })
  else (.error .missing, s)

end Files

/-- An entry of the work directory, as `readdir` lists them. The lock and the journal are
skipped. -/
inductive WorkEntry (Id : Type) where
  | attempt (id : Id)
  | prepared
  | previous

namespace Files

/-- `rm` of an entry of the work directory, recursive and forced. -/
def removeEntry (entry : WorkEntry Id) (s : Files Id Entry) :
    Except (Fault ε) Unit × Files Id Entry :=
  match entry with
  | .attempt id => (.ok (), { s with
      trees := fun slot => if slot.attempt? = some id then none else s.trees slot
      attempts := s.attempts.filter (· ≠ id) })
  | .prepared => (.ok (), s.setTree (.prepared none) none)
  | .previous => (.ok (), s.setTree (.previous none) none)

def removeEntryPart (entry : WorkEntry Id) (left : Left Id Entry) (s : Files Id Entry) :
    Files Id Entry :=
  match entry with
  | .attempt id => { s with
      trees := fun slot =>
        if slot.attempt? = some id then cutTree (left slot) (s.trees slot) else s.trees slot }
  | .prepared => s.removePart (.prepared none) left
  | .previous => s.removePart (.previous none) left

/-- `readdir` of the work directory. -/
def workEntries (s : Files Id Entry) : List (WorkEntry Id) :=
  s.attempts.map .attempt ++ (if (s.trees (.prepared none)).isSome then [.prepared] else []) ++
    (if (s.trees (.previous none)).isSome then [.previous] else [])

end Files

section Operations

variable (Id Entry ε)

/-- `exists`: `lstat` that takes `ENOENT` for an answer. -/
def exists? (slot : Slot Id) : Installer Id Entry ε Bool := look fun s => (s.trees slot).isSome

/-- `syncDirectory`. -/
def syncDirectory : Installer Id Entry ε Unit := do
  touch
  finallyDo touch touch

end Operations

def rename (source target : Slot Id) : Installer Id Entry ε Unit :=
  operate (Files.rename source target) fun _ s => s

def removeTree (slot : Slot Id) : Installer Id Entry ε Unit :=
  operate (Files.removeTree slot) (Files.removePart slot)

/-- `atomicWrite` of the journal: a temporary file is written and renamed. -/
def writeJournal (record : Journal Id) : Installer Id Entry ε Unit := do
  touch
  finallyDo (do
    -- write, chmod, sync and close
    touch
    touch
    touch
    touch
    operate (fun s => (.ok (), { s with journal := some record })) fun _ s => s
    syncDirectory Id Entry ε) (do
    touch
    touch)

/-! ## Recovery -/

/-- The recovery directory: `lstat` fails if it is not there. -/
def findAttempt (attempt : Option Id) : Installer Id Entry ε Unit :=
  operate (fun s => if attempt.all (· ∈ s.attempts) then (.ok (), s) else (.error .missing, s))
    fun _ s => s

/-- Put the old tree back, or take an uncommitted one away. -/
def restore (hadDestination : Bool) (attempt : Option Id) : Installer Id Entry ε Unit := do
  findAttempt attempt
  if ← exists? Id Entry ε (.previous attempt) then
    touch
    removeTree .destination
    rename (.previous attempt) .destination
    syncDirectory Id Entry ε
    syncDirectory Id Entry ε
  else if hadDestination then
    if ← exists? Id Entry ε .destination then
      return
    else
      Prog.raise .cannotRecover
  else if ← exists? Id Entry ε (.prepared attempt) then
    return
  else
    removeTree .destination
    syncDirectory Id Entry ε

/-- `recover`. -/
def recover : Installer Id Entry ε Unit := do
  if ← look fun s => s.journal.isSome then
    touch
    match ← look fun s => s.journal with
    | none => Prog.raise .missing
    | some .unreadable => Prog.raise .invalidJournal
    | some (.record hadDestination attempt) => do
      restore hadDestination attempt
      operate Files.removeJournal fun _ s => s
      syncDirectory Id Entry ε

/-! ## Publication -/

/-- The old tree is moved, if there is one. -/
def vacate (id : Id) (hadDestination : Bool) : Installer Id Entry ε Unit :=
  if hadDestination then rename .destination (.previous (some id)) else pure ()

/-- `beforePublish`, if it was given. -/
def beforePublish (callback : Bool) : Installer Id Entry ε Unit :=
  if callback then touch else pure ()

/-- The part of `replace` that is rolled back. -/
def publish (id : Id) (hadDestination callback : Bool) : Installer Id Entry ε Unit := do
  vacate id hadDestination
  syncDirectory Id Entry ε
  syncDirectory Id Entry ε
  beforePublish callback
  rename (.prepared (some id)) .destination
  syncDirectory Id Entry ε
  syncDirectory Id Entry ε
  operate Files.commit fun _ s => s
  syncDirectory Id Entry ε

/-- `replace`: the tree of an attempt takes the place of the one at the destination. The callback
before the publication is one more operation, if there is one. -/
def replace (id : Id) (callback : Bool) : Installer Id Entry ε Unit := do
  operate (fun s => (.ok (), { s with
    attempts := if id ∈ s.attempts then s.attempts else id :: s.attempts })) fun _ s => s
  rename (.unpacked id) (.prepared (some id))
  let hadDestination ← exists? Id Entry ε .destination
  writeJournal (.record hadDestination (some id))
  (publish id hadDestination callback).handle fun e => do
    recover.handle fun rollback => Prog.raise (.rollbackFailed e rollback)
    Prog.raise e

/-! ## The transaction -/

/-- `cleanupObsolete`: what cannot be inspected or removed is left with a warning. -/
def cleanupObsolete : Installer Id Entry ε Unit := do
  let entries ← (look Files.workEntries).handle fun _ => pure []
  entries.forM fun entry =>
    (operate (Files.removeEntry entry) (Files.removeEntryPart entry)).handle fun _ => pure ()

/-- `close`, of a transaction that was opened. -/
def close : Installer Id Entry ε Unit :=
  finallyDo (do
    if ← look fun s => s.journal.isSome then return
    else cleanupObsolete) touch

/-- `open`: the directories are made and checked, the lock is taken, and what an earlier
transaction has left is recovered. -/
def openTransaction : Installer Id Entry ε Unit := do
  touch
  touch
  touch
  touch
  touch
  (do
    recover
    cleanupObsolete : Installer Id Entry ε Unit).handle fun e => do
      close
      Prog.raise e

/-- `mkdir` of an attempt directory: a new directory is empty. -/
def Files.makeAttempt (id : Id) (s : Files Id Entry) : Except (Fault ε) Unit × Files Id Entry :=
  if id ∈ s.attempts then (.error .alreadyExists, s)
  else (.ok (), { s with
    trees := fun slot => if slot.attempt? = some id then none else s.trees slot
    attempts := id :: s.attempts })

def prepare (id : Id) (tree : List Entry) : Installer Id Entry ε Unit := do
  operate (Files.makeAttempt id) fun _ s => s
  operate (fun s => (.ok (), s.setTree (.unpacked id) (some tree)))
    fun left s => s.setTree (.unpacked id) ((left (.unpacked id)).map fun kept =>
      tree.filter (· ∈ kept))

/-- One transaction of `installWorker`: what there is to install, if anything. -/
structure Attempt (Id Entry : Type) where
  id : Id
  tree : Option (List Entry)
  callback : Bool

/-- What `installWorker` does between `open` and `close`. -/
def installTree (attempt : Attempt Id Entry) : Installer Id Entry ε Unit :=
  match attempt.tree with
  | none => pure ()
  | some tree => do
    prepare attempt.id tree
    replace attempt.id attempt.callback

/-- A transaction as `installWorker` makes it. -/
def transact (attempt : Attempt Id Entry) : Installer Id Entry ε Unit := do
  openTransaction
  finallyDo (installTree attempt) close

/-- A list of transactions, each in a process of its own with what becomes of its operations. -/
def transactions (s : Files Id Entry) :
    List (Attempt Id Entry × List (Outcome (Fault ε) (Left Id Entry))) → Files Id Entry
  | [] => s
  | (attempt, outcomes) :: rest =>
    transactions ((transact attempt : Installer Id Entry ε Unit).exec ⟨s, outcomes⟩).2.state rest

end SimplexAgent.Hub.Install
