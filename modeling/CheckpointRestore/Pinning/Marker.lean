import CheckpointRestore.Lib.Json
import CheckpointRestore.FileSystem

namespace CheckpointRestore.Pinning

open Go

/-!
# The pin marker — `podRestorePinMarker` and its encoding

A `.keep` file written by the operator is one line of JSON; any other content of such a file
is somebody else's pin.

* `parsePodRestorePinMarker` — the marker in a file, if it is one of the operator's;
* `markerData` — the bytes `writePodRestorePinMarker` writes;
* `parse_markerData` — what it writes is read back.
-/

/-- The identifier in `managedBy`. -/
def podRestorePinManager : String := "checkpoint-restore-operator/podrestore"

/-- `podRestorePinMarker`. -/
structure PodRestorePinMarker where
  managedBy : String
  owners : List String
  deriving DecidableEq

/-! ### Reading -/

/-- Decode one field of the object.  The second component is the backing array of `owners`,
    over which a later `podRestoreOwners` is decoded. -/
def decodeField (st : PodRestorePinMarker × List String) (field : String × Json.Value) :
    Option (PodRestorePinMarker × List String) :=
  if Json.fieldMatches "managedBy" field.1 then
    (Json.decodeString st.1.managedBy field.2).map
      (fun managedBy => ({ st.1 with managedBy }, st.2))
  else if Json.fieldMatches "podRestoreOwners" field.1 then
    (Json.decodeStringSlice st.2 field.2).map (fun p => ({ st.1 with owners := p.1 }, p.2))
  else some st

/-- `json.Unmarshal` into a `podRestorePinMarker`. -/
def unmarshalMarker (data : List UInt8) : Option PodRestorePinMarker :=
  match Json.parseBytes data with
  | some .null => some ⟨"", []⟩
  | some (.obj fields) => (fields.foldlM decodeField (⟨"", []⟩, [])).map Prod.fst
  | _ => none

/-- `parsePodRestorePinMarker`; a tar archive is no JSON. -/
def parsePodRestorePinMarker : Content → Option PodRestorePinMarker
  | .tar _ _ => none
  | .bytes data =>
    match unmarshalMarker data with
    | none => none
    | some marker => if marker.managedBy ≠ podRestorePinManager then none else some marker

/-! ### Writing -/

/-- The fields `json.Marshal` writes; an empty owner list is omitted. -/
def markerFields (marker : PodRestorePinMarker) : List (String × List Char) :=
  ("managedBy", Json.encodeString marker.managedBy) ::
    if marker.owners = [] then []
    else [("podRestoreOwners", Json.encodeArray (marker.owners.map Json.encodeString))]

/-- The line `writePodRestorePinMarker` writes. -/
def markerData (marker : PodRestorePinMarker) : List UInt8 :=
  Json.encodeRunes (Json.encodeObject (markerFields marker) ++ ['\n'])

/-- The values of the fields that are written. -/
def markerValues (marker : PodRestorePinMarker) : List (String × Json.Value) :=
  ("managedBy", .str marker.managedBy) ::
    if marker.owners = [] then []
    else [("podRestoreOwners", .arr (marker.owners.map Json.Value.str))]

theorem encodes_strings (ss : List String) :
    Json.Encodes 1 (Json.encodeArray (ss.map Json.encodeString)) (.arr (ss.map .str)) := by
  apply Json.encodes_array
  induction ss with
  | nil => exact .nil
  | cons s ss ih => exact .cons (Json.encodes_string s) ih

theorem encodes_markerFields (marker : PodRestorePinMarker) :
    Json.Encodes 2 (Json.encodeObject (markerFields marker)) (.obj (markerValues marker)) := by
  have hmanagedBy := (Json.encodes_string marker.managedBy).mono (Nat.zero_le 1)
  apply Json.encodes_object
  · unfold markerFields markerValues
    split_ifs with howners
    · exact .cons ⟨rfl, hmanagedBy⟩ .nil
    · exact .cons ⟨rfl, hmanagedBy⟩ (.cons ⟨rfl, encodes_strings marker.owners⟩ .nil)
  · exact List.cons_ne_nil _ _

/-- Strings are decoded as they are. -/
theorem decodeElems_strings (mem ss : List String) :
    Json.decodeElems mem (ss.map .str) = some ss := by
  induction ss generalizing mem with
  | nil => rfl
  | cons s ss ih =>
    rw [List.map_cons, Json.decodeElems, ih]
    rfl

theorem decodeField_owners {m : PodRestorePinMarker} {ss : List String} (hne : ss ≠ []) :
    decodeField (m, []) ("podRestoreOwners", .arr (ss.map .str))
      = some ({ m with owners := ss }, ss) := by
  obtain ⟨s, ss, rfl⟩ := List.exists_cons_of_ne_nil hne
  have hslice : Json.decodeStringSlice [] (.arr ((s :: ss).map .str))
      = some (s :: ss, s :: ss) := by
    rw [List.map_cons, Json.decodeStringSlice, ← List.map_cons, decodeElems_strings]
    simp
  have hother : ¬ Json.fieldMatches "managedBy" "podRestoreOwners" = true := by decide
  have hkey : Json.fieldMatches "podRestoreOwners" "podRestoreOwners" = true := by decide
  unfold decodeField
  rw [if_neg hother, if_pos hkey, hslice]
  rfl

/-- **Round trip.** A marker the operator writes is read back as it was. -/
theorem parse_markerData (owners : List String) :
    parsePodRestorePinMarker (.bytes (markerData ⟨podRestorePinManager, owners⟩))
      = some ⟨podRestorePinManager, owners⟩ := by
  have hparse : Json.parseBytes (markerData ⟨podRestorePinManager, owners⟩)
      = some (.obj (markerValues ⟨podRestorePinManager, owners⟩)) := by
    unfold Json.parseBytes markerData
    rw [Json.decodeRunes_encodeRunes]
    exact Json.parse_of_encodes (encodes_markerFields _) (by omega) rfl
  have hunmarshal : unmarshalMarker (markerData ⟨podRestorePinManager, owners⟩)
      = some ⟨podRestorePinManager, owners⟩ := by
    unfold unmarshalMarker
    rw [hparse]
    have hmanagedBy : decodeField (⟨"", []⟩, []) ("managedBy", .str podRestorePinManager)
        = some (⟨podRestorePinManager, []⟩, []) := by
      unfold decodeField
      rw [if_pos (by decide)]
      rfl
    show (List.foldlM decodeField (⟨"", []⟩, [])
      (markerValues ⟨podRestorePinManager, owners⟩)).map Prod.fst = _
    unfold markerValues
    rw [List.foldlM_cons, hmanagedBy]
    split_ifs with howners
    · have hnil : owners = [] := howners
      rw [hnil]
      rfl
    · show (List.foldlM decodeField (⟨podRestorePinManager, []⟩, [])
        [("podRestoreOwners", .arr (owners.map .str))]).map Prod.fst = _
      rw [List.foldlM_cons, decodeField_owners howners]
      rfl
  show (match unmarshalMarker (markerData ⟨podRestorePinManager, owners⟩) with
    | none => none
    | some marker => if marker.managedBy ≠ podRestorePinManager then none else some marker) = _
  rw [hunmarshal]
  rfl

/-- What parses as managed carries the operator's identifier. -/
theorem parse_managedBy {content : Content} {marker : PodRestorePinMarker}
    (h : parsePodRestorePinMarker content = some marker) :
    marker.managedBy = podRestorePinManager := by
  unfold parsePodRestorePinMarker at h
  split at h
  · exact absurd h (by simp)
  · split at h
    · exact absurd h (by simp)
    · split_ifs at h with hne
      cases h
      exact not_not.mp hne

end CheckpointRestore.Pinning
