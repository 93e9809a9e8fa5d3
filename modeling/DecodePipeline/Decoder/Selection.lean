import DecodePipeline.Decoder.Entry
import DecodePipeline.Text.Blank

/-!
This module contains the user's selection of decoders: a list of items between commas. An item names
a decoder, which moves to the front; with a leading `-` it removes the decoder, and a lone `-`
removes all decoders that are not named.
-/

namespace DecodePipeline

inductive DecoderName where
  | inAnyFamily (decoder : String)
  | inFamily (family decoder : String)
  | wholeFamily (family : String)
  deriving DecidableEq

namespace DecoderName

def ofText (text : List Char) : DecoderName :=
  match Text.cutAt? ':' text with
  | none => .inAnyFamily (String.ofList text)
  | some (family, ['*']) => .wholeFamily (String.ofList family)
  | some (family, decoder) => .inFamily (String.ofList family) (String.ofList decoder)

def names : DecoderName → DecoderEntry → Bool
  | inAnyFamily decoder, entry => decoder == entry.decoder
  | inFamily family decoder, entry => family == entry.family && decoder == entry.decoder
  | wholeFamily family, entry => family == entry.family

end DecoderName

inductive SelectionItem where
  | prefer (name : DecoderName)
  | exclude (name : DecoderName)
  | noFallback
  deriving DecidableEq

namespace SelectionItem

def ofText : List Char → SelectionItem
  | ['-'] => .noFallback
  | '-' :: name => .exclude (.ofText name)
  | name => .prefer (.ofText name)

def list (selection : String) : List SelectionItem :=
  ((Text.pieces ',' (Text.trim selection.toList)).map Text.trim).filter (!·.isEmpty) |>.map ofText

def prefers (item : SelectionItem) (entry : DecoderEntry) : Bool :=
  match item with
  | prefer name => name.names entry
  | _ => false

def excludes (item : SelectionItem) (entry : DecoderEntry) : Bool :=
  match item with
  | exclude name => name.names entry
  | _ => false

end SelectionItem

namespace DecoderEntry

def appendNew (entries more : List DecoderEntry) : List DecoderEntry :=
  more.foldl (fun entries entry => if entries.contains entry then entries else entries ++ [entry])
    entries

def preferred (candidates : List DecoderEntry) (items : List SelectionItem) : List DecoderEntry :=
  items.foldl (fun entries item => appendNew entries (candidates.filter item.prefers)) []

def visible? (selection : Option String) : Option String :=
  selection.filter fun selection => !(Text.trim selection.toList).isEmpty

/--
The decoders to try for a codec, in order. Without a selection these are all decoders of the codec
in the order of the catalogue.
-/
def select (catalogue : List DecoderEntry) (codec : String) (selection : Option String) :
    List DecoderEntry :=
  let candidates := catalogue.filter (·.codec == codec)
  match visible? selection with
  | none => candidates
  | some selection =>
    let items := SelectionItem.list selection
    let entries := preferred candidates items
    let entries := if items.contains .noFallback then entries else appendNew entries candidates
    entries.filter fun entry => !items.any (·.excludes entry)

end DecoderEntry
end DecodePipeline
