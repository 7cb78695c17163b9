import Nixnas.Ui.LogRecords

/-!
# What Keep removes

The removals of `keep_and_prune`: the oldest logs of the directory, all but the
newest `retain`, and the note that counts the ones that succeeded.
-/

set_option autoImplicit false

namespace Nixnas.Ui.Logging

open Nixnas.Logic Nixnas.Rust

/-- Logs of earlier sessions, and a file that is none. -/
def earlier : Disk := fun p =>
  if p ∈ (List.range 21).map fun n => "/logs/" ++ toString n ++ ".log" then some (.file [1])
  else if p = "/logs/notes.txt" then some (.file [2]) else none

/-- The session that has begun a build. -/
def building : Session :=
  (Session.new earlier (some "/logs")).step (.call (.begin "build")) smooth

/-- Two logs more than are kept, the earlier ones all of one age; the second one cannot
be removed. -/
def twoTooMany : PruneAnswers where
  finish := ⟨none, none⟩
  listing := some (some "notes.txt" :: none ::
    (List.range 21).map (fun n => some (toString n ++ ".log")) ++
      [some "build-19700101-000000.log"])
  modified p := if p = "/logs/build-19700101-000000.log" then some 1 else some 0
  removable p := p ≠ "/logs/1.log"
  opens := true
  note := none

/-- The logs among them, as they are listed. -/
def listedLogs : List (Int × String) :=
  logsIn "/logs" (twoTooMany.listing.getD []) twoTooMany.modified

/-- The removals that a keep attempts here. -/
def attempts : Disk × List (String × Bool) :=
  removeEach twoTooMany.removable (building.finish twoTooMany.finish).disk
    ((listedLogs.take 2).map (·.2))

end Nixnas.Ui.Logging
