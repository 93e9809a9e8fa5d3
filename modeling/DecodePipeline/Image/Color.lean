/-!
This module contains the description of colors in a picture.
-/

namespace DecodePipeline

inductive ColorSpace where
  | bt601
  | bt709
  | bt2020Ncl
  | bt2020Cl
  | rgb
  deriving DecidableEq

inductive ColorLevels where
  | limited
  | full
  deriving DecidableEq

inductive ColorPrimaries where
  | bt601Lines525
  | bt601Lines625
  | bt709
  | bt2020
  | dciP3
  deriving DecidableEq

inductive TransferFunction where
  | bt1886
  | srgb
  | linear
  | pq
  | hlg
  deriving DecidableEq

structure ColorParams where
  space : Option ColorSpace := none
  levels : Option ColorLevels := none
  primaries : Option ColorPrimaries := none
  transfer : Option TransferFunction := none
  peak : Float32 := 0
  deriving BEq, DecidableEq, Inhabited

def isValidPeak (peak : Float32) : Bool :=
  peak == 0 || (1 ≤ peak && peak ≤ 100)

namespace ColorParams

def merge (color other : ColorParams) : ColorParams where
  space := color.space <|> other.space
  levels := color.levels <|> other.levels
  primaries := color.primaries <|> other.primaries
  transfer := color.transfer <|> other.transfer
  peak := if color.peak == 0 then other.peak else color.peak

def withoutInvalidPeak (color : ColorParams) : ColorParams :=
  if isValidPeak color.peak then color else { color with peak := 0 }

end ColorParams
end DecodePipeline
