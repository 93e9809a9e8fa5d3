import DecodePipeline.Image.Derivation

/-!
This module contains the cache that spares the pipeline from deriving the same parameters for every
frame: they are derived again only if the decoder reports parameters that differ from the last.
-/

namespace DecodePipeline

structure ParamsCache where
  -- The parameters for which `derived` holds; `none` if the next ones are derived in any
  -- case.
  last : Option ImageParams := none
  derived : ImageParams := {}
  format : ImageParams := {}
  updates : Nat := 0
  deriving DecidableEq, Inhabited

namespace ParamsCache

def hit (cache : ParamsCache) (incoming : ImageParams) : Bool := cache.last == some incoming

def apply (cache : ParamsCache) (incoming : ImageParams) (codec : CodecParams)
    (options : DecoderOptions) : ImageParams × ParamsCache :=
  if cache.hit incoming then (cache.derived, cache)
  else
    let derived := incoming.derive codec options
    (derived, { last := some incoming, derived, format := incoming, updates := cache.updates + 1 })

def notices (cache : ParamsCache) (incoming : ImageParams) (codec : CodecParams)
    (options : DecoderOptions) : List Notice :=
  if cache.hit incoming then []
  else .decoderFormat incoming :: incoming.derivationNotices codec options

def invalidate (cache : ParamsCache) : ParamsCache := { cache with last := none }

end ParamsCache
end DecodePipeline
