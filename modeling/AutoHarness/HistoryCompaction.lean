import AutoHarness.AggregateLog
import AutoHarness.ContextRoundTrip
import AutoHarness.SortedLists

namespace AutoHarness

section Longest

variable {json : HistoryJson} {omittedHash : OmittedHash} {sessionId : SessionId}
  {cutoff : SessionSequence} {prior : Option CompactedHistoryV1} {count : UInt32} {maxBytes : Nat}
  {history : CompactedHistoryV1}

end Longest

section Rounds

variable {json : HistoryJson} {omittedHash : OmittedHash} {sessionId : SessionId}

end Rounds

section Compaction

end Compaction

end AutoHarness
