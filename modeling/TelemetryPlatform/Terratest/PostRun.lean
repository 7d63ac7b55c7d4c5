import TelemetryPlatform.Library.Watching
import TelemetryPlatform.Terratest.Module

/-!
# What a terratest run does after its tests

An observer notes what the tests end in, what the checks of the sweep say, in which
directories a destroy is attempted and what is removed. `After` is what it has noted when the phases
after the tests are over, or one of them has raised.
-/

namespace Terratest

open Python Interaction

section Observer

variable (rt : Runtime)

/-- What has happened in a run, as far as the verdict is about it. -/
structure Seen where
  /-- What the tests ended in, and the files they left. -/
  tests : Option (Except Str Int × Examples)
  /-- The codes of the checks of the sweep, the last one first. -/
  checks : List Int
  /-- The directories in which a destroy was attempted. -/
  destroyed : List Dir
  /-- The number of destroys that left resources. -/
  leaks : Nat
  /-- What was removed, and the directories in which a destroy was attempted before. -/
  removed : List (Dir × List Dir)
  /-- A call on the way to the sweep raised, or a state could not be read. -/
  blocked : Bool
  swept : Bool

/-- The destroy has left resources. -/
def leftLive (dir : Dir) : Except Str Int × Examples → Nat
  | (.ok _, files) => if stillLive rt dir files matches .ok true then 1 else 0
  | (.error _, _) => 0

/-- The destroy could not be run, or the state after it not be read. -/
def unreadable (dir : Dir) : Except Str Int × Examples → Bool
  | (.ok _, files) => (stillLive rt dir files matches .error _)
  | (.error _, _) => true

def Seen.watch (seen : Seen) : ModuleEvent → Seen
  | ⟨.goTest _ _, reply⟩ => { seen with tests := some reply }
  | ⟨.terraform args dir _, reply⟩ =>
      if args = destroyArgs then
        { seen with
          destroyed := dir :: seen.destroyed
          leaks := seen.leaks + leftLive rt dir reply
          blocked := seen.blocked || unreadable rt dir reply }
      else { seen with blocked := seen.blocked || (reply.1 matches .error _) }
  | ⟨.rmtree dir, _⟩ => { seen with removed := (dir, seen.destroyed) :: seen.removed }
  | ⟨.unlink path, reply⟩ =>
      { seen with
        removed := (path, seen.destroyed) :: seen.removed
        blocked := seen.blocked || (reply matches .error _) }
  | ⟨.sweep .check _, .ok ()⟩ => { seen with checks := 0 :: seen.checks, swept := true }
  | ⟨.sweep .check _, .error (.systemExit code)⟩ =>
      { seen with checks := code.caught :: seen.checks, swept := true }
  | ⟨.sweep .check _, .error (.other _)⟩ => { seen with swept := true }
  | _ => seen

def Seen.nothing : Seen := ⟨none, [], [], 0, [], false, false⟩

/-- What is seen of a run. -/
def seenIn (log : List ModuleEvent) : Seen := log.foldl (Seen.watch rt) .nothing

end Observer

section Destroy

variable {rt : Runtime} {setup : Setup} {env : Environ} {seen seen' : Seen}

/-- What is not about the destroys is as it was. -/
structure Retrying (seen seen' : Seen) : Prop where
  tests : seen'.tests = seen.tests
  checks : seen'.checks = seen.checks
  removed : seen'.removed = seen.removed
  swept : seen'.swept = seen.swept

theorem Retrying.refl (seen : Seen) : Retrying seen seen := ⟨rfl, rfl, rfl, rfl⟩

theorem Retrying.trans {seen'' : Seen} (first : Retrying seen seen')
    (second : Retrying seen' seen'') : Retrying seen seen'' :=
  ⟨second.tests.trans first.tests, second.checks.trans first.checks,
    second.removed.trans first.removed, second.swept.trans first.swept⟩

/-- The destroys have run in some directories, and left resources in so many of them. -/
structure Retried (dirs : List Dir) (leaks : Nat) (seen seen' : Seen) : Prop where
  retrying : Retrying seen seen'
  destroyed : seen'.destroyed = dirs.reverse ++ seen.destroyed
  leaks_eq : seen'.leaks = seen.leaks + leaks
  open_ : seen'.blocked ↔ seen.blocked

/-- The destroys have raised. -/
structure Stuck (seen seen' : Seen) : Prop where
  retrying : Retrying seen seen'
  blocked : seen'.blocked

theorem watched_invokeTerraform (args : List Str) (dir : Dir) (other : args ≠ destroyArgs) :
    (invokeTerraform args dir env).Watched (Seen.watch rt) (fun outcome seen' =>
      match outcome with
      | .ok _ => Retried [] 0 seen seen'
      | .error error => Stuck seen seen' ∧ ∃ text, error = .raised text) seen := by
  rintro ⟨text | code, files⟩
  · refine ⟨⟨?_, ?_⟩, text, rfl⟩
    · simp only [Seen.watch, if_neg other]
      exact ⟨rfl, rfl, rfl, rfl⟩
    · simp [Seen.watch, if_neg other]
  · refine ⟨?_, ?_, ?_, ?_⟩
    · simp only [Seen.watch, if_neg other]
      exact ⟨rfl, rfl, rfl, rfl⟩
    · simp only [Seen.watch, if_neg other]
      rfl
    · simp only [Seen.watch, if_neg other]
      rfl
    · simp [Seen.watch, if_neg other]

theorem Retried.trans {dirs others : List Dir} {leaks more : Nat} {seen'' : Seen}
    (first : Retried dirs leaks seen seen') (second : Retried others more seen' seen'') :
    Retried (dirs ++ others) (leaks + more) seen seen'' where
  retrying := first.retrying.trans second.retrying
  destroyed := by
    rw [second.destroyed, first.destroyed, List.reverse_append, List.append_assoc]
  leaks_eq := by
    rw [second.leaks_eq, first.leaks_eq, Nat.add_assoc]
  open_ := second.open_.trans first.open_

theorem Retried.stuck {dirs : List Dir} {leaks : Nat} {seen'' : Seen}
    (first : Retried dirs leaks seen seen') (second : Stuck seen' seen'') : Stuck seen seen'' :=
  ⟨first.retrying.trans second.retrying, second.blocked⟩

/-- An exception that is no `SystemExit`. -/
def Uncaught : ModuleError → Prop
  | .exit _ _ => False
  | _ => True

theorem uncaught_stateHasResources {reading : Reading} {error : ModuleError}
    (raised : stateHasResources rt reading = .error error) : Uncaught error := by
  cases reading with
  | osError text => cases raised
  | undecodable text =>
      cases raised
      trivial
  | text raw =>
      rw [stateHasResources] at raised
      split_ifs at raised
      split at raised
      · cases raised
      · cases raised
        trivial
      · split at raised
        · cases raised
        · cases raised
          trivial

theorem uncaught_stillLive {dir : Dir} {files : Examples} {error : ModuleError}
    (raised : stillLive rt dir files = .error error) : Uncaught error := by
  rw [stillLive] at raised
  split at raised
  · cases raised
  · exact uncaught_stateHasResources raised

/-- A destroy is counted, and so are the resources that it has left. -/
theorem watched_retryDir (dir : Dir) :
    (retryDir rt setup env dir).Watched (Seen.watch rt) (fun outcome seen' =>
      match outcome with
      | .ok (live, _) => Retried [dir] (if live then 1 else 0) seen seen'
      | .error error => Stuck seen seen' ∧ Uncaught error) seen := by
  have differs : initArgs ≠ destroyArgs := by decide
  intro _
  refine (watched_invokeTerraform initArgs dir differs).bind ?_ ?_
  · rintro _ seen₁ ready
    rintro ⟨text | code, files⟩
    · refine ⟨ready.stuck ⟨⟨rfl, rfl, rfl, rfl⟩, by simp [Seen.watch, unreadable]⟩, trivial⟩
    · change Program.Watched _ _ (Program.ofExcept (stillLive rt dir files) >>= fun live =>
        eprint (retriedText setup dir code live) >>= fun _ => .ret (live, files)) _
      cases read : stillLive rt dir files with
      | error error =>
          refine ⟨ready.stuck ⟨⟨rfl, rfl, rfl, rfl⟩, ?_⟩, uncaught_stillLive read⟩
          simp [Seen.watch, unreadable, read]
      | ok live =>
          intro _
          have counted : Retried [dir] (if live then 1 else 0) seen₁ (Seen.watch rt seen₁
              ⟨.terraform destroyArgs dir env, (.ok code, files)⟩) := by
            refine ⟨⟨rfl, rfl, rfl, rfl⟩, rfl, ?_, ?_⟩
            · cases live <;> simp [Seen.watch, leftLive, read]
            · simp [Seen.watch, unreadable, read]
          have whole := ready.trans counted
          rwa [List.nil_append, Nat.zero_add] at whole
  · rintro error seen₁ ⟨stuck, text, rfl⟩
    exact ⟨stuck, trivial⟩

theorem watched_retryDirs (dirs : List Dir) (leaks : Nat) (files : Examples) :
    (retryDirs rt setup env dirs leaks files).Watched (Seen.watch rt) (fun outcome seen' =>
      match outcome with
      | .ok (total, _) => ∃ more, Retried dirs more seen seen' ∧ total = leaks + more
      | .error error => Stuck seen seen' ∧ Uncaught error) seen := by
  induction dirs generalizing leaks files seen with
  | nil => exact ⟨0, ⟨.refl seen, rfl, rfl, Iff.rfl⟩, rfl⟩
  | cons dir dirs ih =>
      refine (watched_retryDir dir).bind ?_ ?_
      · rintro ⟨live, files⟩ seen₁ retried
        refine (ih (if live then leaks + 1 else leaks) files).mono ?_
        rintro (error | ⟨total, rest⟩) seen₂ ended
        · exact ⟨retried.stuck ended.1, ended.2⟩
        · rcases ended with ⟨more, later, rfl⟩
          refine ⟨_, retried.trans later, ?_⟩
          cases live with
          | true => exact (Nat.add_assoc leaks 1 more)
          | false => exact congrArg (leaks + ·) (Nat.zero_add more).symm
      · exact fun error seen₁ stuck => stuck

theorem uncaught_liveDirs {files : Examples} {error : ModuleError}
    (raised : liveDirs rt files = .error error) : Uncaught error := by
  induction files with
  | nil => cases raised
  | cons file files ih =>
      rw [liveDirs] at raised
      split_ifs at raised
      · cases read : stateHasResources rt file.2 with
        | error other =>
            rw [read] at raised
            cases raised
            exact uncaught_stateHasResources read
        | ok live =>
            rw [read] at raised
            cases found : liveDirs rt files with
            | error other =>
                rw [found] at raised
                cases raised
                exact ih found
            | ok others =>
                rw [found] at raised
                cases raised
      · exact ih raised

/-- The directories with resources can be found. -/
def Scans (rt : Runtime) (files : Examples) (live : List Dir) : Prop :=
  liveDirs rt files = .ok live

/-- How the destroys after the tests end. -/
theorem watched_retryAfter (goExit : Int) (files : Examples) :
    (retryAfter rt setup env goExit files).Watched (Seen.watch rt) (fun outcome seen' =>
      match outcome with
      | .ok (leaks, later) => ∃ dirs, Retried dirs leaks seen seen' ∧
          (goExit = 0 → dirs = [] ∧ later = files) ∧
          (goExit ≠ 0 → ∃ live, Scans rt files live ∧ ∀ dir ∈ live, dir ∈ dirs)
      | .error error => Uncaught error ∧ Retrying seen seen' ∧ goExit ≠ 0 ∧
          (seen'.blocked ∨ seen' = seen ∧ ¬∃ live, Scans rt files live)) seen := by
  have none : Retried [] 0 seen seen := ⟨.refl seen, rfl, rfl, Iff.rfl⟩
  unfold retryAfter
  split_ifs with failed
  · cases found : liveDirs rt files with
    | error error =>
        have stops : retryTerraformDestroy rt setup env files = .raise error := by
          rw [retryTerraformDestroy, findLeakedTerraformDirs, found]
          rfl
        rw [stops]
        refine ⟨uncaught_liveDirs found, .refl seen, failed, Or.inr ⟨rfl, ?_⟩⟩
        rintro ⟨live, scans⟩
        rw [Scans, found] at scans
        cases scans
    | ok live =>
        have members (dir : Dir) : dir ∈ live.dedup.insertionSort (dirLe setup) ↔ dir ∈ live := by
          rw [List.mem_insertionSort, List.mem_dedup]
        have dirs : retryTerraformDestroy rt setup env files =
            if live.dedup.insertionSort (dirLe setup) = [] then .ret (0, files)
            else eprint (str "WARNING: terratest destroy left " ++
                numeral (live.dedup.insertionSort (dirLe setup)).length ++
                str " terraform working director(y/ies) with live state under " ++
                setup.modulePath ++
                str "/examples/; retrying 'terraform destroy -auto-approve' in each.") >>= fun _ =>
              retryDirs rt setup env (live.dedup.insertionSort (dirLe setup)) 0 files := by
          rw [retryTerraformDestroy, findLeakedTerraformDirs, found]
          rfl
        rw [dirs]
        split_ifs with empty
        · refine ⟨[], none, fun passed => absurd passed failed, fun _ => ⟨live, found, ?_⟩⟩
          intro dir dirMem
          rw [← empty]
          exact (members dir).mpr dirMem
        · intro _
          refine (watched_retryDirs _ 0 files).mono ?_
          rintro (error | ⟨total, rest⟩) seen₁ ended
          · exact ⟨ended.2, ended.1.retrying, failed, Or.inl ended.1.blocked⟩
          · rcases ended with ⟨more, retried, rfl⟩
            rw [Nat.zero_add]
            exact ⟨_, retried, fun passed => absurd passed failed,
              fun _ => ⟨live, found, fun dir dirMem => (members dir).mpr dirMem⟩⟩
  · exact ⟨[], none, fun _ => ⟨rfl, rfl⟩, fun failed' => absurd failed' failed⟩

end Destroy

section Cleaning

variable {rt : Runtime} {seen seen' : Seen}

/-- Some paths have been removed, and nothing else has happened. -/
structure Cleaned (paths : List Dir) (seen seen' : Seen) : Prop where
  tests : seen'.tests = seen.tests
  checks : seen'.checks = seen.checks
  destroyed : seen'.destroyed = seen.destroyed
  leaks : seen'.leaks = seen.leaks
  swept : seen'.swept = seen.swept
  removed : ∀ entry, entry ∈ seen'.removed ↔
    entry ∈ seen.removed ∨ entry.1 ∈ paths ∧ entry.2 = seen.destroyed

theorem Cleaned.refl (seen : Seen) : Cleaned [] seen seen :=
  ⟨rfl, rfl, rfl, rfl, rfl, fun _ => by simp⟩

theorem Cleaned.trans {first second : List Dir} {seen'' : Seen} (left : Cleaned first seen seen')
    (right : Cleaned second seen' seen'') : Cleaned (first ++ second) seen seen'' where
  tests := right.tests.trans left.tests
  checks := right.checks.trans left.checks
  destroyed := right.destroyed.trans left.destroyed
  leaks := right.leaks.trans left.leaks
  swept := right.swept.trans left.swept
  removed entry := by
    rw [right.removed, left.removed, left.destroyed, List.mem_append]
    tauto

theorem cleaned_rmtree (dir : Dir) (left : List Dir) :
    Cleaned [dir] seen (Seen.watch rt seen ⟨.rmtree dir, left⟩) := by
  refine ⟨rfl, rfl, rfl, rfl, rfl, ?_⟩
  rintro ⟨path, before⟩
  simp only [Seen.watch, List.mem_cons, List.not_mem_nil, or_false, Prod.mk.injEq]
  exact or_comm

theorem cleaned_unlink (path : Dir) (reply : Except Str Unit) :
    Cleaned [path] seen (Seen.watch rt seen ⟨.unlink path, reply⟩) := by
  refine ⟨rfl, rfl, rfl, rfl, rfl, ?_⟩
  rintro ⟨other, before⟩
  simp only [Seen.watch, List.mem_cons, List.not_mem_nil, or_false, Prod.mk.injEq]
  exact or_comm

/-- A path or a directory above it is among those that were removed. -/
def Gone (paths : List Dir) (path : Dir) : Prop := ∃ gone ∈ paths, gone = path ∨ below gone path

theorem Gone.mono {paths more : List Dir} {path : Dir} (gone : Gone paths path)
    (within : paths ⊆ more) : Gone more path := by
  rcases gone with ⟨other, otherMem, isGone⟩
  exact ⟨other, within otherMem, isGone⟩

theorem watched_removeTerraformDirs (dirs : List Dir) (files : Examples) :
    (removeTerraformDirs dirs files).Watched (Seen.watch rt) (fun outcome seen' =>
      ∃ paths, Cleaned paths seen seen' ∧ (seen'.blocked ↔ seen.blocked) ∧
        match outcome with
        | .ok later => ∀ file ∈ files, file ∈ later ∨ Gone paths file.1
        | .error _ => False) seen := by
  induction dirs generalizing files seen with
  | nil => exact ⟨[], .refl seen, Iff.rfl, fun file fileMem => Or.inl fileMem⟩
  | cons dir dirs ih =>
      rw [removeTerraformDirs]
      split_ifs with present
      · intro left
        refine (ih _).mono ?_
        rintro outcome seen₁ ⟨paths, cleaned, same, ended⟩
        refine ⟨[dir] ++ paths, (cleaned_rmtree dir left).trans cleaned, same, ?_⟩
        cases outcome with
        | error error => exact ended
        | ok later =>
            intro file fileMem
            by_cases inside : below dir file.1
            · exact Or.inr ⟨dir, List.mem_cons_self, Or.inr inside⟩
            · have kept : file ∈ files.filter fun file =>
                  !below dir file.1 || decide (file.1 ∈ left) :=
                List.mem_filter.mpr ⟨fileMem, by simp [inside]⟩
              rcases ended file kept with still | gone
              · exact Or.inl still
              · exact Or.inr (gone.mono (List.subset_append_right _ _))
      · exact ih files

theorem watched_unlinkAll (paths : List Dir) :
    (unlinkAll paths).Watched (Seen.watch rt) (fun outcome seen' => ∃ done,
      Cleaned done seen seen' ∧
        match outcome with
        | .ok () => done = paths ∧ (seen'.blocked ↔ seen.blocked)
        | .error error => Uncaught error ∧ seen'.blocked) seen := by
  induction paths generalizing seen with
  | nil => exact ⟨[], .refl seen, rfl, Iff.rfl⟩
  | cons path paths ih =>
      rintro (text | ⟨⟩)
      · exact ⟨[path], cleaned_unlink path _, trivial, by simp [Seen.watch]⟩
      · refine ih.mono ?_
        rintro outcome seen₁ ⟨done, cleaned, ended⟩
        refine ⟨[path] ++ done, (cleaned_unlink path _).trans cleaned, ?_⟩
        cases outcome with
        | error error => exact ended
        | ok value =>
            refine ⟨congrArg (path :: ·) ended.1, ended.2.trans ?_⟩
            simp [Seen.watch]

/-- The states are removed, unless something raises. -/
theorem watched_cleanExampleCaches (files : Examples) :
    (cleanExampleCaches files).Watched (Seen.watch rt) (fun outcome seen' => ∃ paths,
      Cleaned paths seen seen' ∧
        match outcome with
        | .ok () => (seen'.blocked ↔ seen.blocked) ∧
            ∀ file ∈ files, file.1.getLast? = some stateFile → Gone paths file.1
        | .error error => Uncaught error ∧ seen'.blocked) seen := by
  refine (watched_removeTerraformDirs _ files).bind ?_ ?_
  · rintro later seen₁ ⟨dirs, first, same₁, kept⟩
    refine (watched_unlinkAll _).bind ?_ ?_
    · rintro ⟨⟩ seen₂ ⟨states, second, rfl, same₂⟩
      refine (watched_unlinkAll _).mono ?_
      rintro outcome seen₃ ⟨locks, third, ended⟩
      refine ⟨_, (first.trans second).trans third, ?_⟩
      cases outcome with
      | error error => exact ended
      | ok value =>
          refine ⟨ended.2.trans (same₂.trans same₁), ?_⟩
          intro file fileMem isState
          rcases kept file fileMem with still | gone
          · refine ⟨file.1, ?_, Or.inl rfl⟩
            apply List.mem_append_left
            apply List.mem_append_right
            refine List.mem_filter.mpr ⟨List.mem_map_of_mem still, ?_⟩
            rw [isState]
            decide
          · apply gone.mono
            intro path pathMem
            exact List.mem_append_left _ (List.mem_append_left _ pathMem)
    · rintro error seen₂ ⟨states, second, ended⟩
      exact ⟨_, first.trans second, ended⟩
  · rintro error seen₁ ⟨paths, cleaned, same, ⟨⟩⟩

end Cleaning

section Sweeping

variable {rt : Runtime} {seen : Seen}

/-- The residue that the checks have found, where the last one has decided. -/
def residue? : List Int → Option Int
  | [check] => if check = 0 then some check else none
  | [recheck, check] => if check = 0 then none else some recheck
  | _ => none

/-- The account is swept, whatever the sweep ends in. -/
structure Sweeping (seen seen' : Seen) : Prop where
  tests : seen'.tests = seen.tests
  destroyed : seen'.destroyed = seen.destroyed
  leaks : seen'.leaks = seen.leaks
  removed : seen'.removed = seen.removed
  blocked : seen'.blocked = seen.blocked
  swept : seen'.swept

theorem watched_check (runId : Str) : (runSweep .check runId).Watched (Seen.watch rt)
    (fun outcome seen' => Sweeping seen seen' ∧
      match outcome with
      | .ok code => seen'.checks = code :: seen.checks
      | .error error => Uncaught error ∧ seen'.checks = seen.checks) seen := by
  rintro ((code | text) | ⟨⟩)
  · exact ⟨⟨rfl, rfl, rfl, rfl, rfl, rfl⟩, rfl⟩
  · exact ⟨⟨rfl, rfl, rfl, rfl, rfl, rfl⟩, trivial, rfl⟩
  · exact ⟨⟨rfl, rfl, rfl, rfl, rfl, rfl⟩, rfl⟩

theorem watched_delete (runId : Str) : (runSweep .delete runId).Watched (Seen.watch rt)
    (fun outcome seen' => seen' = seen ∧ ∀ error, outcome = .error error → Uncaught error)
    seen := by
  rintro ((code | text) | ⟨⟩)
  · refine ⟨rfl, ?_⟩
    rintro error ⟨⟩
  · refine ⟨rfl, ?_⟩
    rintro error ⟨⟩
    trivial
  · refine ⟨rfl, ?_⟩
    rintro error ⟨⟩

theorem watched_sweepResidue (runId : Str) (fresh : seen.checks = []) :
    (sweepResidue runId).Watched (Seen.watch rt) (fun outcome seen' => Sweeping seen seen' ∧
      match outcome with
      | .ok residue => residue? seen'.checks = some residue
      | .error error => Uncaught error ∧ residue? seen'.checks = none) seen := by
  refine (watched_check runId).bind ?_ ?_
  · rintro check seen₁ ⟨sweeping, checks⟩
    rw [fresh] at checks
    split_ifs with clean
    · refine ⟨sweeping, ?_⟩
      rw [checks, residue?, if_pos clean]
    · refine (watched_delete runId).bind ?_ ?_
      · rintro code _ ⟨rfl, -⟩
        refine (watched_check runId).mono ?_
        rintro outcome seen₂ ⟨again, rechecks⟩
        refine ⟨⟨again.tests.trans sweeping.tests, again.destroyed.trans sweeping.destroyed,
          again.leaks.trans sweeping.leaks, again.removed.trans sweeping.removed,
          again.blocked.trans sweeping.blocked, again.swept⟩, ?_⟩
        cases outcome with
        | ok residue =>
            dsimp only at rechecks ⊢
            rw [rechecks, checks, residue?, if_neg clean]
        | error error =>
            refine ⟨rechecks.1, ?_⟩
            rw [rechecks.2, checks, residue?, if_neg clean]
      · rintro error _ ⟨rfl, uncaught⟩
        refine ⟨sweeping, uncaught error rfl, ?_⟩
        rw [checks, residue?, if_neg clean]
  · rintro error seen₁ ⟨sweeping, uncaught, checks⟩
    refine ⟨sweeping, uncaught, ?_⟩
    rw [checks, fresh, residue?]
    · rintro check ⟨⟩
    · rintro recheck check ⟨⟩

theorem watched_eprintAll (lines : List Str) : (eprintAll lines).Watched (Seen.watch rt)
    (fun outcome seen' => outcome = .ok () ∧ seen' = seen) seen := by
  induction lines with
  | nil => exact ⟨rfl, rfl⟩
  | cons line lines ih => exact fun _ => ih

end Sweeping

section PostRun

variable {rt : Runtime} {setup : Setup} {env : Environ} {seen seen' : Seen} {goExit : Int}
  {files : Examples}

/-- Nothing has happened but the tests. -/
structure Fresh (seen : Seen) : Prop where
  checks : seen.checks = []
  destroyed : seen.destroyed = []
  leaks : seen.leaks = 0
  removed : seen.removed = []
  open_ : ¬seen.blocked
  unswept : ¬seen.swept

/-- What the phases after the tests have done by their end. -/
structure After (rt : Runtime) (goExit : Int) (files : Examples) (seen seen' : Seen) : Prop where
  tests : seen'.tests = seen.tests
  /-- After tests that have failed, nothing is removed before the destroys. -/
  late : goExit ≠ 0 → ∀ entry ∈ seen'.removed,
    ∃ live, Scans rt files live ∧ ∀ dir ∈ live, dir ∈ entry.2
  undestroyed : goExit = 0 → ∀ entry ∈ seen'.removed, entry.2 = []
  /-- After tests that have passed, the states are removed before the sweep. -/
  gone : goExit = 0 → seen'.swept → ∀ file ∈ files, file.1.getLast? = some stateFile →
    Gone (seen'.removed.map Prod.fst) file.1
  swept : seen'.swept ↔ ¬seen'.blocked ∧ (goExit ≠ 0 → ∃ live, Scans rt files live)

/-- What is removed is removed when the destroys are over. -/
theorem Cleaned.destroyed_of_mem {dirs paths : List Dir} {leaks : Nat} {seen₁ seen₂ : Seen}
    (cleaned : Cleaned paths seen₁ seen₂) (retried : Retried dirs leaks seen seen₁)
    (fresh : Fresh seen) {entry : Dir × List Dir} (entryMem : entry ∈ seen₂.removed) :
    entry.2 = dirs.reverse := by
  rcases (cleaned.removed entry).mp entryMem with old | ⟨-, before⟩
  · rw [retried.retrying.removed, fresh.removed] at old
    exact absurd old List.not_mem_nil
  · rw [before, retried.destroyed, fresh.destroyed, List.append_nil]

/-- The phases after the tests. -/
theorem watched_postRun (runId : Str) (fresh : Fresh seen) :
    (postRun rt setup runId env goExit files).Watched (Seen.watch rt) (fun outcome seen' =>
      After rt goExit files seen seen' ∧
        match outcome with
        | .ok (residue, leaks) => residue? seen'.checks = some residue ∧ seen'.leaks = leaks
        | .error error => Uncaught error ∧ residue? seen'.checks = none) seen := by
  refine (watched_retryAfter goExit files).bind ?_ ?_
  · rintro ⟨leaks, later⟩ seen₁ ⟨dirs, retried, passed, failed⟩
    have late {entry : Dir × List Dir} (before : entry.2 = dirs.reverse) (isFailed : goExit ≠ 0) :
        ∃ live, Scans rt files live ∧ ∀ dir ∈ live, dir ∈ entry.2 := by
      rcases failed isFailed with ⟨live, scans, within⟩
      refine ⟨live, scans, fun dir dirMem => ?_⟩
      rw [before, List.mem_reverse]
      exact within dir dirMem
    have undestroyed {entry : Dir × List Dir} (before : entry.2 = dirs.reverse)
        (isPassed : goExit = 0) : entry.2 = [] := by
      rw [before, (passed isPassed).1, List.reverse_nil]
    have scans (isFailed : goExit ≠ 0) : ∃ live, Scans rt files live := by
      rcases failed isFailed with ⟨live, scans, -⟩
      exact ⟨live, scans⟩
    refine (watched_cleanExampleCaches later).bind ?_ ?_
    · rintro ⟨⟩ seen₂ ⟨paths, cleaned, same, gone⟩
      have unchecked : seen₂.checks = [] := by
        rw [cleaned.checks, retried.retrying.checks, fresh.checks]
      have after {seen₃ : Seen} (sweeping : Sweeping seen₂ seen₃) :
          After rt goExit files seen seen₃ ∧ seen₃.leaks = leaks := by
        have before {entry : Dir × List Dir} (entryMem : entry ∈ seen₃.removed) :
            entry.2 = dirs.reverse := by
          rw [sweeping.removed] at entryMem
          exact cleaned.destroyed_of_mem retried fresh entryMem
        have isOpen : ¬seen₃.blocked := by
          rw [sweeping.blocked, same, retried.open_]
          exact fresh.open_
        refine ⟨⟨?_, ?_, ?_, ?_, ?_⟩, ?_⟩
        · rw [sweeping.tests, cleaned.tests, retried.retrying.tests]
        · exact fun isFailed entry entryMem => late (before entryMem) isFailed
        · exact fun isPassed entry entryMem => undestroyed (before entryMem) isPassed
        · intro isPassed _ file fileMem isState
          rw [← (passed isPassed).2] at fileMem
          apply (gone file fileMem isState).mono
          intro path pathMem
          rw [sweeping.removed]
          exact List.mem_map_of_mem ((cleaned.removed (path, seen₁.destroyed)).mpr
            (Or.inr ⟨pathMem, rfl⟩))
        · exact ⟨fun _ => ⟨isOpen, scans⟩, fun _ => sweeping.swept⟩
        · rw [sweeping.leaks, cleaned.leaks, retried.leaks_eq, fresh.leaks, Nat.zero_add]
      refine (watched_sweepResidue runId unchecked).bind ?_ ?_
      · rintro residue seen₃ ⟨sweeping, decided⟩
        refine (watched_eprintAll _).bind ?_ ?_
        · rintro ⟨⟩ _ ⟨-, rfl⟩
          exact ⟨(after sweeping).1, decided, (after sweeping).2⟩
        · rintro error _ ⟨⟨⟩, -⟩
      · rintro error seen₃ ⟨sweeping, uncaught, undecided⟩
        exact ⟨(after sweeping).1, uncaught, undecided⟩
    · rintro error seen₂ ⟨paths, cleaned, uncaught, blocked⟩
      have unswept : ¬seen₂.swept := by
        rw [cleaned.swept, retried.retrying.swept]
        exact fresh.unswept
      refine ⟨⟨?_, ?_, ?_, ?_, ?_⟩, uncaught, ?_⟩
      · rw [cleaned.tests, retried.retrying.tests]
      · exact fun isFailed entry entryMem =>
          late (cleaned.destroyed_of_mem retried fresh entryMem) isFailed
      · exact fun isPassed entry entryMem =>
          undestroyed (cleaned.destroyed_of_mem retried fresh entryMem) isPassed
      · exact fun _ swept => absurd swept unswept
      · exact ⟨fun swept => absurd swept unswept, fun isOpen => absurd blocked isOpen.1⟩
      · rw [cleaned.checks, retried.retrying.checks, fresh.checks]
        rfl
  · rintro error seen₁ ⟨uncaught, retrying, failed, why⟩
    have unswept : ¬seen₁.swept := by
      rw [retrying.swept]
      exact fresh.unswept
    have none : seen₁.removed = [] := by
      rw [retrying.removed, fresh.removed]
    refine ⟨⟨retrying.tests, ?_, ?_, ?_, ?_⟩, uncaught, ?_⟩
    · intro _ entry entryMem
      rw [none] at entryMem
      exact absurd entryMem List.not_mem_nil
    · exact fun passed => absurd passed failed
    · exact fun passed => absurd passed failed
    · refine ⟨fun swept => absurd swept unswept, ?_⟩
      rintro ⟨isOpen, scans⟩
      rcases why with blocked | ⟨-, unscanned⟩
      · exact absurd blocked isOpen
      · exact absurd (scans failed) unscanned
    · rw [retrying.checks, fresh.checks]
      rfl

end PostRun

end Terratest
