import TaskMonitor.Lib.Roster
import TaskMonitor.Stat.Source

/-! Free memory blocks (`SysProcBuddyInfo.cpp`).

One line a zone of a node. An entry is found again by the hash of the two names
put together; `jnkHsh` is a parameter. -/
namespace TaskMonitor
open Lines Text

structure BuddyInfo where
  name : List Char
  zone : List Char
  data : List Char := []
  hash : UInt64
deriving Repr, DecidableEq

namespace SysProcBuddyInfo

/-- Where the token is that marks the zone, 0 if there is none; one at 0 is passed over for a later. -/
def zoneMarker (tokens : List (List Char)) : Nat :=
  tokens.zipIdx.foldl (fun m (t, i) => if m = 0 ∧ t = "zone".toList then i else m) 0

/-- `updateBuddyInfoEntry` -/
def updateBuddyInfoEntry (tokens : List (List Char)) : EStateM Fault BuddyInfo Unit :=
  modify fun b => {b with data := (tokens.drop (zoneMarker tokens + 2)).flatMap fun t => t ++ [' ']}

def buddyLine (jnkHsh : List Char → UInt64) (line : List Char) : EStateM Fault (List BuddyInfo) Flow :=
  if ¬"zone".toList <:+: line then pure .next
  else do
    let tokens := words line
    if tokens.length < zoneMarker tokens + 3 then pure (.stop false)
    else do
      -- the comma after the name
      let nameToken := (tokens.take (zoneMarker tokens)).flatten.dropLast
      let zoneToken ← attempt (tokenAt tokens (zoneMarker tokens + 1))
      let hash := jnkHsh (nameToken ++ zoneToken)
      Roster.upsert (fun b => decide (b.hash = hash)) (updateBuddyInfoEntry tokens)
        {name := nameToken, zone := zoneToken, hash := hash}
      pure .next

def doUpdateStats (jnkHsh : List Char → UInt64) (file : Option (List (List Char))) :
    EStateM Fault (List BuddyInfo) Bool :=
  match file with
  | none => throw .notOpen
  | some lines => read (buddyLine jnkHsh) lines

def kind (jnkHsh : List Char → UInt64) : SourceKind (Option (List (List Char))) (List BuddyInfo) (List BuddyInfo) where
  doUpdateStats := doUpdateStats jnkHsh
  collect := id

theorem ends_buddyLine (jnkHsh : List Char → UInt64) (line : List Char) (nodes : List BuddyInfo) :
    Ends (buddyLine jnkHsh line) nodes := by
  unfold buddyLine
  split
  · exact ends_pure _ _
  · simp only
    split
    · exact ends_pure _ _
    · rename_i hshort
      have hzone : tokenAt (words line) (zoneMarker (words line) + 1) = .ok (words line)[zoneMarker (words line) + 1] :=
        tokenAt_ok.mpr (List.getElem?_eq_getElem (by omega))
      have hentry (b : BuddyInfo) : Ends (updateBuddyInfoEntry (words line)) b ↔ True :=
        iff_of_true ⟨(), _, rfl⟩ trivial
      obtain ⟨_, nodes', hups⟩ := (Roster.ends_upsert_iff hentry nodes).mpr trivial
      exact ends_attempt_bind.mpr ⟨_, hzone, ends_bind.mpr ⟨_, nodes', hups, ends_pure _ _⟩⟩

/-- Nothing is converted, so the update of a file ends with a status. -/
theorem ends_doUpdateStats (jnkHsh : List Char → UInt64) (lines : List (List Char)) (nodes : List BuddyInfo) :
    Ends (doUpdateStats jnkHsh (some lines)) nodes := by
  show Ends (read (buddyLine jnkHsh) lines) nodes
  induction lines generalizing nodes with
  | nil => exact ends_pure _ _
  | cons line rest ih =>
    obtain ⟨flow, nodes', hline⟩ := ends_buddyLine jnkHsh line nodes
    refine ends_bind.mpr ⟨flow, nodes', hline, ?_⟩
    cases flow with
    | next => exact ih nodes'
    | stop status => exact ends_pure _ _

end SysProcBuddyInfo
end TaskMonitor
