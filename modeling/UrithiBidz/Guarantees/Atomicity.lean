import UrithiBidz.Guarantees.Idempotence
import UrithiBidz.Indexer.Statements

/-!
# Handlers that fail halfway

A handler makes one to three queries, and each is committed by itself. So when a statement of
the database fails, whatever the handler wrote before stays: a bid is there whose auction does
not know it, and an auction is cancelled without an event that says so. The error is logged, and
the event does not come again.

A failed handler leaves the tables as they were in two cases only. The statement that failed was
its first, or what had been written was there already, in the sense of
`UrithiBidz.SorobanEvent.Reflected`; the latter never happens to a bid
(`UrithiBidz.interrupted_eq_self_iff`). A handler with a single query, that of an extension, has
no other statement than its first.
-/

namespace UrithiBidz

end UrithiBidz
