/-!
The namespaces of timed text: the core, its parameter, styling and metadata
families, and the extensions that the delivery profiles draw on.
-/

namespace TimedText.Vocabulary

def core : String := "http://www.w3.org/ns/ttml"

def parameter : String := "http://www.w3.org/ns/ttml#parameter"

def styling : String := "http://www.w3.org/ns/ttml#styling"

def metadata : String := "http://www.w3.org/ns/ttml#metadata"

def audio : String := "http://www.w3.org/ns/ttml#audio"

def feature : String := "http://www.w3.org/ns/ttml/feature/"

def xml : String := "http://www.w3.org/XML/1998/namespace"

def broadcastStyling : String := "urn:ebu:tt:style"

def broadcastMetadata : String := "urn:ebu:tt:metadata"

def internetStyling : String :=
  "http://www.w3.org/ns/ttml/profile/imsc1#styling"

def internetParameter : String :=
  "http://www.w3.org/ns/ttml/profile/imsc1#parameter"

def scriptMetadata : String :=
  "http://www.w3.org/ns/ttml/profile/dapt#metadata"

def scriptExtension : String :=
  "http://www.w3.org/ns/ttml/profile/dapt/extension/"

end TimedText.Vocabulary
