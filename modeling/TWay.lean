import TWay.Text.Blank
import TWay.Text.Quoted
import TWay.Decimal.Plain
import TWay.Decimal.Reading
import TWay.Check
import TWay.Coverage.Targets
import TWay.Build.Builder
import TWay.Json.Decode
import TWay.Json.Write
import TWay.Proofs.Eval.Naive
import TWay.Proofs.Eval.Extension
import TWay.Proofs.Build.Evaluation
import TWay.Proofs.Build.Legal
import TWay.Proofs.Coverage.Targets
import TWay.Proofs.Coverage.Subsumption
import TWay.Proofs.Build.Report
import TWay.Proofs.Build.Change
import TWay.Proofs.Build.Declaration
import TWay.Proofs.Build.Determined
import TWay.Proofs.Build.Attempt
import TWay.Proofs.Build.Strength
import TWay.Proofs.Build.Registry
import TWay.Proofs.Assignment
import TWay.Proofs.Eval.Chosen
import TWay.Proofs.Build.Choice
import TWay.Proofs.Coverage.Readable
import TWay.Proofs.Build.Silence
import TWay.Proofs.Eval.Congruence
import TWay.Proofs.Eval.Termination
import TWay.Proofs.Eval.Cycle
import TWay.Proofs.Eval.Typing
import TWay.Proofs.Build.Coherence
import TWay.Proofs.Eval.Locality
import TWay.Proofs.Eval.Refinement
import TWay.Proofs.Eval.Validity
import TWay.Proofs.Eval.Comparison
import TWay.Proofs.Coverage.Enumeration
import TWay.Proofs.Build.Reasons
import TWay.Proofs.Build.Halted
import TWay.Proofs.Eval.Integer
import TWay.Proofs.Coverage.Asked
import TWay.Proofs.Coverage.Report
import TWay.Proofs.Coverage.Realized
import TWay.Proofs.Coverage.Valued
import TWay.Proofs.Build.Selection
import TWay.Proofs.Verdict
import TWay.Proofs.Truncation
import TWay.Proofs.Build.Coercion
import TWay.Proofs.Decimal.Prefix
import TWay.Proofs.Edits
import TWay.Proofs.Eval.Equality
import TWay.Proofs.Eval.Concat
import TWay.Proofs.Json.Read
import TWay.Proofs.Json.Written
