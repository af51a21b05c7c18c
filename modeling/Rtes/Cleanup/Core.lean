import Rtes.Text.Decimal
import Rtes.Transition.History

/-!
# Files that are left open

While the module is loaded, the entries of the system call table for `exit` and
`exit_group` point to functions of the module.  These write the paths of the files that
a process left open to the kernel log, if its name contains a given text, and go on
to the entries that were there before.  The buffer for the paths is allocated at every
exit and never freed, and the size and the flags are passed to the allocator in each
other's place.
-/

namespace Rtes.Cleanup

open Rtes.Text Rtes.Transition

/-! ## The allocator -/

/-- Why the kernel stops. -/
inductive Crash where
  | badAddress
  | bug
  | recursion
  deriving DecidableEq, Repr

/-- What the allocator of slabs has at a call: an object that is free, or none, and then a
page for a new slab or no page. -/
inductive Slabs where
  | object
  | page
  | noPage
  deriving DecidableEq, Repr

/-- `GFP_KERNEL` -/
def gfpKernel : BitVec 32 :=
  0x10#32 ||| 0x40#32 ||| 0x80#32

/-- `GFP_SLAB_BUG_MASK` -/
def gfpSlabBugMask : BitVec 32 :=
  0x04#32 ||| 0x02#32 ||| ~~~0xffffff#32

/-- `kmalloc`, and the size of what it gives.  A new slab is refused to some flags. -/
def kmalloc (size flags : BitVec 32) : Slabs → Except Crash (Option ℕ)
  | .object => .ok (some size.toNat)
  | .page => if flags &&& gfpSlabBugMask ≠ 0 then .error .bug else .ok (some size.toNat)
  | .noPage => if flags &&& gfpSlabBugMask ≠ 0 then .error .bug else .ok none

/-- With the size and the flags in each other's place, a free object is large enough, and a
new slab is always refused. -/
theorem kmalloc_swapped_eq_ok_iff {slabs : Slabs} {buf : Option ℕ} :
    kmalloc gfpKernel 100 slabs = .ok buf ↔ slabs = .object ∧ buf = some 208 := by
  cases slabs with
  | object => simp [kmalloc, gfpKernel, eq_comm]
  | page => simp [kmalloc, gfpSlabBugMask]
  | noPage => simp [kmalloc, gfpSlabBugMask]

/-! ## The module -/

/-- A process that exits: its name, its number, and the paths of its open files by file
descriptor. -/
structure Process where
  comm : List Char
  pid : ℤ
  fd : List (Option (List Char))

/-- What an entry of the system call table points to. -/
inductive Handler where
  | original
  | custom
  deriving DecidableEq, Repr

/-- The two entries. -/
inductive Call where
  | exit
  | exitGroup
  deriving DecidableEq, Repr

/-- The system call table, what the module saved of it, the text it was given while it is
loaded, the buffers that are allocated, the kernel log and the processes that have
exited. -/
structure Hooks where
  sysCallTable : Call → Handler
  originals : Call → Option Handler
  comm : Option (List Char)
  buffers : ℕ
  log : List (List Char)
  exited : List Process

/-- The first line about a process. -/
def header (p : Process) : List Char :=
  "cleanup: process '".toList ++ p.comm ++ "' (PID ".toList ++ signedDecimal p.pid ++
    ") did not close files:".toList

def pathLine (path : List Char) : List Char :=
  "cleanup: ".toList ++ path

/-- `d_path`, which writes the path and its terminator to the end of the first `buflen`
characters of the buffer, and returns no address when they are too long. -/
def dPath (path : List Char) (buf : Option ℕ) (buflen : ℕ) : Except Crash (Option (List Char)) :=
  match buf with
  | none => .error .badAddress
  | some size =>
      if size < buflen then .error .badAddress
      else if path.length < buflen then .ok (some path) else .ok none

/-- The loop of `check_file_descriptors`. -/
def checkLoop (p : Process) (buf : Option ℕ) (firstTime : ℕ) :
    List (Option (List Char)) → Except Crash (List (List Char))
  | [] => .ok []
  | none :: rest => checkLoop p buf firstTime rest
  | some path :: rest => do
      match ← dPath path buf 100 with
      | none => .error .badAddress
      | some path =>
          let lines ← checkLoop p buf (firstTime + 1) rest
          .ok ((if firstTime + 1 = 1 then [header p] else []) ++ pathLine path :: lines)

/-- The lines about a process whose name contains the text.  The standard files are
skipped. -/
def checkProcess (p : Process) (buf : Option ℕ) (comm : List Char) :
    Except Crash (List (List Char)) :=
  if comm <:+: p.comm then checkLoop p buf 0 (p.fd.drop 3) else .ok []

/-- `check_file_descriptors` -/
def checkFileDescriptors (h : Hooks) (p : Process) (slabs : Slabs) (comm : List Char) :
    Except Crash Hooks := do
  let buf ← kmalloc gfpKernel 100 slabs
  let lines ← checkProcess p buf comm
  .ok { h with
    buffers := if buf.isSome then h.buffers + 1 else h.buffers
    log := h.log ++ lines }

/-- The system call itself. -/
def originalExit (h : Hooks) (p : Process) : Hooks :=
  { h with exited := h.exited ++ [p] }

/-- A process calls one of the two, `custom_exit` and `custom_exit_group` while they are in
the table.  A function of the module that calls itself does not return, and one of a module
that is gone is no function. -/
def callExit (h : Hooks) (call : Call) (p : Process) (slabs : Slabs) : Except Crash Hooks :=
  match h.sysCallTable call, h.comm with
  | .original, _ => .ok (originalExit h p)
  | .custom, none => .error .badAddress
  | .custom, some comm => do
      let h ← checkFileDescriptors h p slabs comm
      match h.originals call with
      | some .original => .ok (originalExit h p)
      | some .custom => .error .recursion
      | none => .error .badAddress

/-- `cleanup_init` -/
def cleanupInit (h : Hooks) (comm : List Char) : ℤ × Hooks :=
  if comm = [] then
    (-1, h)
  else
    (0, { h with
      originals := fun call => some (h.sysCallTable call)
      sysCallTable := fun _ => .custom
      comm := some comm })

/-- `cleanup_exit` -/
def cleanupExit (h : Hooks) : Hooks :=
  { h with
    sysCallTable := fun call => (h.originals call).getD (h.sysCallTable call)
    originals := fun _ => none
    comm := none }

/-- The module is loaded with a text or unloaded, or a process exits. -/
inductive CleanupOp where
  | cleanupInit (comm : List Char)
  | cleanupExit
  | exit (call : Call) (p : Process) (slabs : Slabs)

/-- The module is loaded once at a time. -/
def cleanupStep (h : Hooks) : CleanupOp → Except Crash Hooks
  | .cleanupInit comm => .ok (if h.comm = none then (cleanupInit h comm).2 else h)
  | .cleanupExit => .ok (if h.comm = none then h else cleanupExit h)
  | .exit call p slabs => callExit h call p slabs

/-! ## What is reported -/

/-- The paths of the files left open, other than the standard ones. -/
def leftOpen (p : Process) : List (List Char) :=
  (p.fd.drop 3).filterMap id

/-- The lines about a process that left files open. -/
def report (p : Process) : List (List Char) :=
  if leftOpen p = [] then [] else header p :: (leftOpen p).map pathLine

/-- A path fits the part of the buffer that `d_path` is told of. -/
def Printable (path : List Char) : Prop :=
  path.length < 100

instance : DecidablePred Printable := fun path => inferInstanceAs (Decidable (path.length < 100))

private theorem dPath_eq {path : List Char} :
    dPath path (some 208) 100 = .ok (if Printable path then some path else none) := by
  unfold dPath Printable
  by_cases short : path.length < 100
  · simp [short]
  · simp [short]

private theorem checkLoop_eq_ok_iff {p : Process} {firstTime : ℕ} {fd : List (Option (List Char))}
    {lines : List (List Char)} :
    checkLoop p (some 208) firstTime fd = .ok lines ↔
      (∀ path ∈ fd.filterMap id, Printable path) ∧
        lines = (if firstTime = 0 ∧ fd.filterMap id ≠ [] then [header p] else []) ++
          (fd.filterMap id).map pathLine := by
  induction fd generalizing firstTime lines with
  | nil => simp [checkLoop, eq_comm]
  | cons file rest ih =>
      cases file with
      | none => exact ih
      | some path =>
          have files : (some path :: rest).filterMap id = path :: rest.filterMap id := rfl
          rw [checkLoop, dPath_eq, files, List.forall_mem_cons]
          by_cases printable : Printable path
          · rw [if_pos printable, ok_bind]
            simp only [printable, true_and, bind_eq_ok_iff, ih]
            constructor
            · rintro ⟨_, ⟨all, rfl⟩, result⟩
              cases result
              simpa using all
            · rintro ⟨all, rfl⟩
              refine ⟨_, ⟨all, rfl⟩, ?_⟩
              simp
          · rw [if_neg printable, ok_bind]
            simp [printable]

/-- The report of a process is written if every path can be printed. -/
theorem checkLoop_zero_eq_ok_iff {p : Process} {lines : List (List Char)} :
    checkLoop p (some 208) 0 (p.fd.drop 3) = .ok lines ↔
      (∀ path ∈ leftOpen p, Printable path) ∧ lines = report p := by
  have same : (if 0 = 0 ∧ leftOpen p ≠ [] then [header p] else []) ++
      (leftOpen p).map pathLine = report p := by
    unfold report
    by_cases none : leftOpen p = []
    · simp [none]
    · simp [none]
  rw [checkLoop_eq_ok_iff, ← same]
  rfl

/-! ## Exits -/

/-- The name of a process contains the text of the module, if it is loaded. -/
def watches : Option (List Char) → Process → Bool
  | none, _ => false
  | some comm, p => comm <:+: p.comm

/-- An exit: the process, and the text of the module at that time. -/
structure Exit where
  process : Process
  comm : Option (List Char)

/-- The lines that are to be written about an exit. -/
def Exit.reported (e : Exit) : List (List Char) :=
  if watches e.comm e.process then report e.process else []

/-- The buffers that are allocated for an exit. -/
def Exit.allocated (e : Exit) : ℕ :=
  if e.comm.isSome then 1 else 0

/-- The entries are those of the module exactly while it is loaded, and it has saved what
was there before. -/
structure Hooked (h : Hooks) : Prop where
  unloaded : h.comm = none → ∀ call, h.sysCallTable call = .original
  loaded : h.comm ≠ none → ∀ call, h.sysCallTable call = .custom ∧
    h.originals call = some .original

private theorem checkFileDescriptors_eq_ok_iff {h h' : Hooks} {p : Process} {slabs : Slabs}
    {comm : List Char} :
    checkFileDescriptors h p slabs comm = .ok h' ↔
      slabs = .object ∧ (comm <:+: p.comm → ∀ path ∈ leftOpen p, Printable path) ∧
        h' = { h with
          buffers := h.buffers + 1
          log := h.log ++ if comm <:+: p.comm then report p else [] } := by
  have process {lines : List (List Char)} : checkProcess p (some 208) comm = .ok lines ↔
      (comm <:+: p.comm → ∀ path ∈ leftOpen p, Printable path) ∧
        lines = if comm <:+: p.comm then report p else [] := by
    unfold checkProcess
    by_cases contains : comm <:+: p.comm
    · simp only [contains, if_true, checkLoop_zero_eq_ok_iff, forall_const]
    · simp [contains, eq_comm]
  unfold checkFileDescriptors
  simp only [bind_eq_ok_iff, kmalloc_swapped_eq_ok_iff]
  constructor
  · rintro ⟨_, ⟨object, rfl⟩, _, written, result⟩
    obtain ⟨all, rfl⟩ := process.mp written
    cases result
    exact ⟨object, all, rfl⟩
  · rintro ⟨object, all, rfl⟩
    exact ⟨_, ⟨object, rfl⟩, _, process.mpr ⟨all, rfl⟩, rfl⟩

/-- An exit goes on to the system call, with its report written, unless there is no free
object for the buffer, or a path that is to be written cannot be printed. -/
theorem Hooked.callExit_eq_ok_iff {h h' : Hooks} (hooked : Hooked h) {call : Call} {p : Process}
    {slabs : Slabs} :
    callExit h call p slabs = .ok h' ↔
      (h.comm ≠ none → slabs = .object) ∧
        (watches h.comm p = true → ∀ path ∈ leftOpen p, Printable path) ∧
        h' = { h with
          buffers := h.buffers + Exit.allocated ⟨p, h.comm⟩
          log := h.log ++ Exit.reported ⟨p, h.comm⟩
          exited := h.exited ++ [p] } := by
  obtain ⟨sysCallTable, originals, comm, buffers, log, exited⟩ := h
  cases comm with
  | none =>
      have original : sysCallTable call = .original := hooked.unloaded rfl call
      unfold callExit
      dsimp only
      rw [original]
      simp [watches, originalExit, Exit.allocated, Exit.reported, eq_comm]
  | some comm =>
      obtain ⟨custom, saved⟩ : sysCallTable call = .custom ∧ originals call = some .original :=
        hooked.loaded (Option.some_ne_none comm) call
      have reported : (if comm <:+: p.comm then report p else []) =
          Exit.reported ⟨p, some comm⟩ := by
        simp [Exit.reported, watches]
      have watched : comm <:+: p.comm ↔ watches (some comm) p = true := decide_eq_true_iff.symm
      unfold callExit
      dsimp only
      rw [custom]
      simp only [bind_eq_ok_iff, checkFileDescriptors_eq_ok_iff]
      rw [← watched, reported]
      constructor
      · rintro ⟨_, ⟨object, all, rfl⟩, result⟩
        dsimp only at result
        rw [saved] at result
        cases result
        exact ⟨fun _ => object, all, rfl⟩
      · rintro ⟨object, all, rfl⟩
        refine ⟨_, ⟨object (Option.some_ne_none comm), all, rfl⟩, ?_⟩
        dsimp only
        rw [saved]
        rfl

theorem Hooked.step {h h' : Hooks} {op : CleanupOp} (hooked : Hooked h)
    (taken : cleanupStep h op = .ok h') : Hooked h' := by
  cases op with
  | cleanupInit comm =>
      cases taken
      split
      · rename_i absent
        unfold cleanupInit
        split
        · exact hooked
        · refine ⟨fun none => absurd none (Option.some_ne_none _), fun _ call => ⟨rfl, ?_⟩⟩
          exact congrArg some (hooked.unloaded absent call)
      · exact hooked
  | cleanupExit =>
      cases taken
      split
      · exact hooked
      · rename_i present
        refine ⟨fun _ call => ?_, fun loaded => absurd rfl loaded⟩
        change (h.originals call).getD _ = _
        rw [(hooked.loaded present call).2]
        rfl
  | exit call p slabs =>
      obtain ⟨_, _, rfl⟩ := hooked.callExit_eq_ok_iff.mp taken
      exact ⟨hooked.unloaded, hooked.loaded⟩

/-! ## Every run -/

/-- The exits so far are kept beside the state. -/
def recordedStep : Hooks × List Exit → CleanupOp → Except Crash (Hooks × List Exit) :=
  observe cleanupStep fun h op _ exits =>
    match op with
    | .exit _ p _ => exits ++ [⟨p, h.comm⟩]
    | _ => exits

/-- The module was never loaded, and no process has exited. -/
structure Untouched (now : Hooks × List Exit) : Prop where
  comm : now.1.comm = none
  sysCallTable : ∀ call, now.1.sysCallTable call = .original
  buffers : now.1.buffers = 0
  log : now.1.log = []
  exited : now.1.exited = []
  exits : now.2 = []

/-- Every exit has come to the system call, once and in order; the log has the reports of
those that were watched, and nothing else; and a buffer was lost for every one while the
module was loaded. -/
structure Accounted (now : Hooks × List Exit) : Prop where
  hooked : Hooked now.1
  exited : now.1.exited = now.2.map Exit.process
  log : now.1.log = now.2.flatMap Exit.reported
  buffers : now.1.buffers = (now.2.map Exit.allocated).sum

theorem Untouched.hooked {now : Hooks × List Exit} (untouched : Untouched now) : Hooked now.1 :=
  ⟨fun _ => untouched.sysCallTable, fun loaded => absurd untouched.comm loaded⟩

/-- Whenever the module is loaded and unloaded, and with whatever text: every exit that the
kernel survives comes to the system call, once and in order; the log is that of the processes
whose names contain the text of the time; the entries of the table are the original ones
whenever the module is not loaded; and a buffer is lost at every exit while it is. -/
theorem reaches_accounted {now : Hooks × List Exit}
    (reached : Reaches recordedStep (fun _ _ => True) Untouched now) : Accounted now := by
  apply reached.observed
  · rintro ⟨h, exits⟩ untouched
    cases untouched.exits
    exact ⟨untouched.hooked, untouched.exited, untouched.log, untouched.buffers⟩
  · rintro ⟨h, exits⟩ op h' ⟨before, exited, log, buffers⟩ _ taken
    have hooked := before.step taken
    dsimp only at *
    cases op with
    | cleanupInit comm =>
        cases taken
        refine ⟨hooked, ?_, ?_, ?_⟩
        all_goals
          dsimp only [cleanupInit]
          split_ifs
          all_goals assumption
    | cleanupExit =>
        cases taken
        refine ⟨hooked, ?_, ?_, ?_⟩
        all_goals
          dsimp only [cleanupExit]
          split_ifs
          all_goals assumption
    | exit call p slabs =>
        obtain ⟨_, _, rfl⟩ := before.callExit_eq_ok_iff.mp taken
        refine ⟨hooked, ?_, ?_, ?_⟩
        · simp [exited]
        · simp [log]
        · simp [buffers]

/-- A system on which the module was never loaded. -/
def untouched : Hooks × List Exit :=
  (⟨fun _ => .original, fun _ => none, none, 0, [], []⟩, [])

/-- The module is loaded for names that contain `sh`. -/
def watching : Hooks × List Exit :=
  after recordedStep untouched (.cleanupInit ['s', 'h'])

private theorem reaches_watching : Reaches recordedStep (fun _ _ => True) Untouched watching :=
  Reaches.after (.start ⟨rfl, fun _ => rfl, rfl, rfl, rfl, rfl⟩) trivial (by decide)

/-- A shell with a file left open. -/
def shell : Process :=
  ⟨['s', 'h'], 7, [none, none, none, none, some ['/', 'x']]⟩

theorem reaches_accounted_shell :
    ∃ now, now.1.log = [header shell, pathLine ['/', 'x']] ∧ Accounted now :=
  ⟨after recordedStep watching (.exit .exit shell .object), by decide,
    reaches_accounted (reaches_watching.after trivial (by decide))⟩

/-- In every run, a process can exit while the module is not loaded.  While it is, it can
exit if there is a free object for the buffer and, in case its name contains the text, the
paths of the files it left open have fewer than 100 characters; and else the kernel stops. -/
theorem reaches_exits_iff {now : Hooks × List Exit}
    (reached : Reaches recordedStep (fun _ _ => True) Untouched now) (call : Call) (p : Process)
    (slabs : Slabs) :
    (∃ h', callExit now.1 call p slabs = .ok h') ↔
      (now.1.comm ≠ none → slabs = .object) ∧
        (watches now.1.comm p = true → ∀ path ∈ leftOpen p, Printable path) := by
  have hooked : Hooked now.1 := by
    apply reached.observed
    · intro now untouched
      exact untouched.hooked
    · rintro ⟨h, exits⟩ op h' hooked _ taken
      exact hooked.step taken
  constructor
  · rintro ⟨h', exits⟩
    obtain ⟨object, printable, _⟩ := hooked.callExit_eq_ok_iff.mp exits
    exact ⟨object, printable⟩
  · rintro ⟨object, printable⟩
    exact ⟨_, hooked.callExit_eq_ok_iff.mpr ⟨object, printable, rfl⟩⟩

theorem reaches_exits_iff_shell :
    (∃ h', callExit watching.1 .exitGroup shell .page = .ok h') ↔
      (watching.1.comm ≠ none → Slabs.page = .object) ∧
        (watches watching.1.comm shell = true → ∀ path ∈ leftOpen shell, Printable path) :=
  reaches_exits_iff reaches_watching .exitGroup shell .page

end Rtes.Cleanup
