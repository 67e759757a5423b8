import Mathlib
import Vetting.Database.Table

/-!
What is read back from the columns of a job: a result from the columns that were written for it
(`result_columns`), and a job from the row of its record (`toJob_row`). The database keeps a document
with its members in another order, from which the details read the same (`details_toTree`).
-/
namespace Vetting.Database

private theorem foldl_put_of_distinct (members : List (String × Json.Tree)) :
    ∀ kept : List (String × Json.Tree), ((kept ++ members).map Prod.fst).Nodup →
      members.foldl (fun kept (name, value) => Assoc.put name value kept) kept = kept ++ members := by
  have put_new : ∀ (kept : List (String × Json.Tree)) (name : String) (value : Json.Tree),
      name ∉ kept.map Prod.fst → Assoc.put name value kept = kept ++ [(name, value)] := by
    intro kept name value new
    induction kept with
    | nil => rfl
    | cons member rest ih =>
      simp only [List.map_cons, List.mem_cons, not_or] at new
      rw [Assoc.put, if_neg (Ne.symm new.1), ih new.2, List.cons_append]
  induction members with
  | nil =>
    intro kept _
    exact (List.append_nil kept).symm
  | cons member members ih =>
    intro kept distinct
    have new : member.1 ∉ kept.map Prod.fst := by
      intro old
      rw [List.map_append, List.nodup_append] at distinct
      exact distinct.2.2 _ old _ (by simp) rfl
    rw [List.foldl_cons]
    simp only [put_new kept member.1 member.2 new]
    rw [ih _ (by simpa using distinct), List.append_assoc]
    rfl

/-- Members that their names tell apart are kept in the order of the names. -/
theorem arranged_object {members ordered : List (String × Json.Tree)} (perm : ordered.Perm members)
    (sorted : (ordered.map Prod.fst).Pairwise (· < ·)) :
    arranged (.object members) = .object ordered := by
  have distinct : (ordered.map Prod.fst).Nodup := sorted.imp fun less => ne_of_lt less
  have same := foldl_put_of_distinct members [] (by simpa using (perm.map Prod.fst).nodup_iff.1 distinct)
  rw [List.nil_append] at same
  simp only [arranged, same, Json.Tree.object.injEq]
  have arranges : (members.mergeSort fun a b => decide (¬ b.1 < a.1)).Pairwise
      fun a b => decide (¬ b.1 < a.1) := by
    refine List.pairwise_mergeSort ?_ ?_ members
    · intro a b c ab bc
      simp only [decide_eq_true_eq, not_lt] at *
      exact ab.trans bc
    · intro a b
      simp only [Bool.or_eq_true, decide_eq_true_eq, not_lt]
      exact le_total a.1 b.1
  have rising : ordered.Pairwise fun a b => decide (¬ b.1 < a.1) := by
    refine (List.pairwise_map.1 sorted).imp ?_
    intro a b less
    simp only [decide_eq_true_eq, not_lt]
    exact less.le
  refine List.Perm.eq_of_pairwise ?_ arranges rising ((List.mergeSort_perm _ _).trans perm.symm)
  intro a b inMembers inOrdered ab ba
  simp only [decide_eq_true_eq, not_lt] at ab ba
  have alsoOrdered : a ∈ ordered := perm.mem_iff.2 ((List.mergeSort_perm _ _).mem_iff.1 inMembers)
  exact List.inj_on_of_nodup_map distinct alsoOrdered inOrdered (le_antisymm ab ba)

theorem toTree_details (d : OcrDetails) :
    OcrDetails.codec.toTree d = .object
      [("name", .text d.name), ("gender", .text d.gender), ("dateOfBirth", .text d.dateOfBirth),
        ("idNumber", .text d.idNumber), ("addressLine1", .text d.addressLine1),
        ("addressLine2", .text d.addressLine2), ("pincode", .text d.pincode)] := rfl

private theorem arranged_details (d : OcrDetails) :
    arranged (OcrDetails.codec.toTree d) = .object
      [("addressLine1", .text d.addressLine1), ("addressLine2", .text d.addressLine2),
        ("dateOfBirth", .text d.dateOfBirth), ("gender", .text d.gender),
        ("idNumber", .text d.idNumber), ("name", .text d.name), ("pincode", .text d.pincode)] := by
  have sorted : ["addressLine1", "addressLine2", "dateOfBirth", "gender", "idNumber", "name",
      "pincode"].Pairwise (· < ·) := by decide
  have distinct : (OcrDetails.schema.map Json.Field.name).Nodup := by decide
  rw [toTree_details]
  refine arranged_object ((List.perm_ext_iff_of_nodup ?_ ?_).2 ?_) sorted
  · exact List.Nodup.of_map Prod.fst (sorted.imp fun less => ne_of_lt less)
  · exact List.Nodup.of_map Prod.fst distinct
  · intro member
    simp only [List.mem_cons]
    tauto

@[simp] theorem details_toTree (d : OcrDetails) : details (OcrDetails.codec.toTree d) = .ok d := by
  rw [details, arranged_details]
  rfl

@[simp] theorem status_name (s : JobStatus) : Database.status s.name = .ok s := by
  cases s <;> rfl

@[simp] theorem mapM_required (column : String) (values : List Int) :
    (values.map some).mapM (required column) = .ok values := by
  induction values with
  | nil => rfl
  | cons value rest ih =>
    rw [List.map_cons, List.mapM_cons, ih]
    rfl

/-- A result is read from the columns that were written for it. -/
theorem result_columns {row : JobRow} (r : JobResult)
    (written : (row.matchScore, row.ocrDetails) = resultColumns r) :
    row.result .completed r.jobType = .ok (some r) := by
  cases r with
  | faceMatch score =>
    obtain ⟨scored, _⟩ := Prod.ext_iff.1 written
    simp only at scored
    simp only [JobResult.jobType, JobRow.result, scored, resultColumns, Option.map_some]
  | ocr d =>
    obtain ⟨_, kept⟩ := Prod.ext_iff.1 written
    simp only at kept
    simp only [JobResult.jobType, JobRow.result, kept, resultColumns, details_toTree, Except.map]

theorem result_unfinished {row : JobRow} {status : JobStatus} (unfinished : status ≠ .completed)
    (type : JobType) : row.result status type = .ok none := by
  cases status <;> first | rfl | exact absurd rfl unfinished

/-- The row of a record gives all that is recorded; only the result has to be read. -/
theorem toJob_row (r : Record) (type : JobType) :
    r.row.toJob type = (r.row.result r.status type).map fun result =>
      { id := r.jobId, type, client := r.client, imageIds := r.imageIds, status := r.status
        createdAt := r.createdAt, processedAt := r.processedAt, completedAt := r.completedAt
        failedAt := r.failedAt, failedReason := r.failedReason, result } := by
  simp only [JobRow.toJob, Record.row, required, bind, Except.bind, status_name, mapM_required]
  cases JobRow.result _ r.status type <;> rfl

end Vetting.Database
