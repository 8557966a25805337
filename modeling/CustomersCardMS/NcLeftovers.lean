import Mathlib.Data.List.GetD
import Mathlib.Data.List.TakeWhile
import CustomersCardMS.NcSafety

namespace CustomersCard
open TextSearch

namespace BufferObj

/-- A buffer with `u`, and `v` behind it. -/
def filled (datalen : DWORD) (u v : List Byte) : BufferObj :=
  { zeroed.init datalen with
    dwRecvedCount := BitVec.ofNat 32 u.length, data := fun i => (u ++ v).getD i 0 }

end BufferObj

end CustomersCard
