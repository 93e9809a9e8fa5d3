/-!
This module contains the catalogue entry of a decoder.
-/

namespace DecodePipeline

structure DecoderEntry where
  family : String
  codec : String
  decoder : String
  summary : String
  deriving DecidableEq, Inhabited

namespace DecoderEntry

def qualifiedName (e : DecoderEntry) : String := s!"{e.family}:{e.decoder}"

def text (e : DecoderEntry) : String := s!"{e.family}:{e.decoder} - {e.summary}"

def description (e : DecoderEntry) : String := s!"{e.decoder} ({e.summary})"

end DecoderEntry
end DecodePipeline
