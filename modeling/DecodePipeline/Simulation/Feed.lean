import DecodePipeline.Feed.Basic

/-!
This module contains a feed whose packets are prepared in advance.
-/

namespace DecodePipeline.Simulation

/-- What is left to read. A gap answers one reading with nothing. -/
structure PreparedFeed where
  items : List (Option Packet) := []
  reads : Nat := 0
  deriving DecidableEq, Inhabited

namespace PreparedFeed

def append (f : PreparedFeed) (items : List (Option Packet)) : PreparedFeed :=
  { f with items := f.items ++ items }

instance : PacketFeed PreparedFeed where
  tryRead f :=
    let reads := f.reads + 1
    match f.items with
    | [] => (.ended, { f with reads })
    | none :: items => (.empty, { items, reads })
    | some packet :: items => (.item packet, { items, reads })

end PreparedFeed
end DecodePipeline.Simulation
