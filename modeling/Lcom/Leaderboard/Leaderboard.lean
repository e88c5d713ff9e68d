import Lcom.Drivers.Rtc
import Lcom.Lib.Text

/-!
# The leaderboard — `leaderboard/leaderboard.c`

Every index and every string store is checked, so a table driven outside its memory is a `Fault`.
What the caller hands over as `char name[4]` is the memory from that pointer to the end of the
object it points into, and the leaderboard file is its bytes, or nothing when it cannot be opened.
-/

namespace Lcom

open Lib

structure LeaderboardEntry where
  name : Vector UInt8 4
  dt_of_entry : RtcDateTime
  time_entry : Int64
  deriving DecidableEq, Repr

structure Leaderboard where
  entries : Vector LeaderboardEntry 3
  entry_count : UInt8
  deriving DecidableEq, Repr

namespace Leaderboard

/-! ## `Leaderboard_read_file` -/

/-- The `while` of `Leaderboard_read_file`, on the rest of the file: each `fscanf` stores what it
    converted, also when it stops short of three conversions. A loop that starts with
    `entry_count = 0` leaves through the `break` after three rounds at most, so a fuel of three
    is enough. -/
def readLoop : Nat → Leaderboard → Text → Except Fault Leaderboard
  | 0, leaderboard, _ => .ok leaderboard
  | n + 1, leaderboard, file =>
    match scanString file with
    | none => .ok leaderboard
    | some (token, file) => do
      let i := leaderboard.entry_count.toNat
      let entry ← load leaderboard.entries i
      let name ← storeString entry.name token
      let entry := { entry with name }
      let entries ← store leaderboard.entries i entry
      match scanInt file with
      | none => pure { leaderboard with entries }
      | some (dt_entry, file) =>
        match scanInt file with
        | none => pure { leaderboard with entries }
        | some (time_entry, file) =>
          let entry := { entry with time_entry := saturate time_entry }
          let dt_of_entry ← unixToRtcDateTime (saturate dt_entry) entry.dt_of_entry
          let entries ← store leaderboard.entries i { entry with dt_of_entry }
          let leaderboard := { entries, entry_count := leaderboard.entry_count + 1 }
          if leaderboard.entry_count ≥ 3 then pure leaderboard
          else readLoop n leaderboard file

/-- `Leaderboard_read_file`: the code and the leaderboard. -/
def readFile (leaderboard : Leaderboard) (file : Option Text) :
    Except Fault (Int × Leaderboard) :=
  match file with
  | none => .ok (1, leaderboard)
  | some file => do
    let leaderboard ← readLoop 3 { leaderboard with entry_count := 0 } file
    pure (0, leaderboard)

/-! ## `Leaderboard_write_file` -/

/-- The `fprintf` of one entry, `"%s %lld %lld\n"`. -/
def printEntry (entry : LeaderboardEntry) : Except Fault Text := do
  let name ← loadString entry.name.toList
  let timestamp := rtcDateTimeToUnix entry.dt_of_entry
  pure (name ++ [32] ++ printInt timestamp.toInt ++ [32] ++ printInt entry.time_entry.toInt ++ [10])

/-- The `for` of `Leaderboard_write_file`, over the entries from some index on. -/
def printEntries : List LeaderboardEntry → Except Fault Text
  | [] => pure []
  | entry :: entries => do
    let row ← printEntry entry
    let rows ← printEntries entries
    pure (row ++ rows)

/-- `Leaderboard_write_file`, with whether `fopen` succeeds: the code, and the file written. All
    three entries are printed, whatever `entry_count` is. -/
def writeFile (leaderboard : Leaderboard) (opened : Bool) : Except Fault (Int × Option Text) :=
  if opened then do
    let file ← printEntries leaderboard.entries.toList
    pure (0, some file)
  else pure (1, none)

/-! ## `Leaderboard_add_entry` -/

/-- The first `for` of `Leaderboard_add_entry`, with `todo` rounds left from index `i` on. -/
def insertPosition (leaderboard : Leaderboard) (time_entry : Int64) :
    Nat → Nat → Except Fault Nat
  | 0, _ => pure leaderboard.entry_count.toNat
  | todo + 1, i => do
    let entry ← load leaderboard.entries i
    if time_entry < entry.time_entry then pure i
    else leaderboard.insertPosition time_entry todo (i + 1)

/-- The second `for` of `Leaderboard_add_entry`, from index `i` down to the insert position. -/
def shiftDown (insert_position : Nat) :
    Nat → Vector LeaderboardEntry 3 → Except Fault (Vector LeaderboardEntry 3)
  | 0, entries => pure entries
  | i + 1, entries =>
    if i + 1 > insert_position then
      if i + 1 < 3 then do
        let entry ← load entries i
        let entries ← store entries (i + 1) entry
        shiftDown insert_position i entries
      else shiftDown insert_position i entries
    else pure entries

/-- `Leaderboard_add_entry`; `new_entry` is what the uninitialised local holds on entry. -/
def addEntry (leaderboard : Leaderboard) (name : List UInt8) (dt_of_entry : RtcDateTime)
    (time_entry : Int64) (new_entry : LeaderboardEntry) : Except Fault Leaderboard := do
  let name ← strcpy new_entry.name name
  let new_entry : LeaderboardEntry := { name, dt_of_entry, time_entry }
  let insert_position ← leaderboard.insertPosition time_entry leaderboard.entry_count.toNat 0
  let entries ← shiftDown insert_position leaderboard.entry_count.toNat leaderboard.entries
  if insert_position < 3 then do
    let entries ← store entries insert_position new_entry
    let entry_count :=
      if leaderboard.entry_count < 3 then leaderboard.entry_count + 1 else leaderboard.entry_count
    pure { entries, entry_count }
  else pure { leaderboard with entries }

end Leaderboard

end Lcom
