import ExtensionLint.Text.Pieces
/-!
Policy: texts that a manifest must not contain in certain places. The built-in tables can be
extended; entries that are there already are not repeated, and the first entry that is found counts.
-/

namespace ExtensionLint

/-- What content scripts and homepages must not refer to. -/
structure Policy where
  /-- Texts that a match pattern of a content script must not contain. -/
  blockedHosts : List String
  /-- Texts that the address of a homepage must not contain. -/
  restrictedHomepages : List String
  deriving DecidableEq, Repr

namespace Policy

/-- The hosts into which no content script may be put. -/
def standardHosts : List String :=
  ["addons.mozilla.org", "accounts.firefox.com", "addons.cdn.mozilla.net",
    "support.mozilla.org", "services.mozilla.com"]

def standardHomepages : List String := ["//addons.mozilla.org", "//addons.allizom.org"]

def standard : Policy := ⟨standardHosts, standardHomepages⟩

def addEntry (entries : List String) (entry : String) : List String :=
  if entries.contains entry then entries else entries ++ [entry]

def addEntries (entries more : List String) : List String := more.foldl addEntry entries

def extend (policy : Policy) (hosts homepages : List String) : Policy :=
  ⟨addEntries policy.blockedHosts hosts, addEntries policy.restrictedHomepages homepages⟩

def firstWithin? (entries : List String) (text : String) : Option String :=
  entries.find? fun entry => Text.contains entry.toList text.toList

def blockedHost? (policy : Policy) (pattern : String) : Option String :=
  firstWithin? policy.blockedHosts pattern

def restrictedHomepage? (policy : Policy) (address : String) : Option String :=
  firstWithin? policy.restrictedHomepages address

end Policy
end ExtensionLint
