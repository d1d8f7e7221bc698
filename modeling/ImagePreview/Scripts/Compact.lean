import ImagePreview.Scripts.Library
import ImagePreview.Text.Basic

/-!
The script libraries without comments and line breaks.
-/
namespace ImagePreview.Library

def joined (pieces : List String) : Text := pieces.flatMap String.toList

/-- The library as served by default. -/
def compact : Library → Text
  | .previews => joined [
      "var pagespeed=window.pagespeed||\x7b\x7d;pagespeed.DelayImagesInline=function()\x7b",
      "this.inlineMap_=\x7b\x7d\x7d;pagespeed.DelayImagesInline.prototype.addLowResImages=functio",
      "n(a,b)\x7bthis.inlineMap_[a]=b\x7d;pagespeed.DelayImagesInline.prototype.replaceWithLowRes",
      "=function()\x7bfor(var a=document.querySelectorAll(\"[pagespeed_high_res_src]\"),b=0;",
      "b<a.length;++b)\x7bvar c=a[b].getAttribute(\"pagespeed_high_res_src\");",
      "c&&this.inlineMap_[c]&&a[b].setAttribute(\"src\",this.inlineMap_[c])\x7d",
      "this.inlineMap_=\x7b\x7d\x7d;pagespeed.delayImagesInlineInit=function()\x7b",
      "pagespeed.delayImagesInline=new pagespeed.DelayImagesInline\x7d;",
      "window.pagespeed=pagespeed;"]
  | .fullImages => joined [
      "var pagespeed=window.pagespeed||\x7b\x7d;pagespeed.DelayImages=function()\x7b",
      "this.highResAttribute_=\"pagespeed_high_res_src\"\x7d;",
      "pagespeed.DelayImages.prototype.loadHighRes_=function(a)\x7b",
      "var b=a.getAttribute(this.highResAttribute_);b&&(a.setAttribute(\"src\",b),",
      "a.removeAttribute(this.highResAttribute_))\x7d;pagespeed.DelayImages.prototype.replaceWith",
      "HighRes=function()\x7bfor(var a=document.querySelectorAll(\"[\"+this.highResAttribute_+\"]",
      "\"),b=0;b<a.length;++b)this.loadHighRes_(a[b])\x7d;",
      "pagespeed.DelayImages.prototype.isVisible_=function(a)\x7bvar b=a.getBoundingClientRect(),",
      "c=window.innerHeight||document.documentElement.clientHeight;",
      "return b.top<=c&&b.bottom>=0\x7d;pagespeed.DelayImages.prototype.loadVisible_=function()",
      "\x7bfor(var a=document.querySelectorAll(\"[\"+this.highResAttribute_+\"]\"),b=0;",
      "b<a.length;++b)this.isVisible_(a[b])&&this.loadHighRes_(a[b])\x7d;",
      "pagespeed.DelayImages.prototype.registerLazyLoadHighRes=function()\x7bvar a=this,",
      "b=function()\x7ba.loadVisible_()\x7d;window.addEventListener(\"scroll\",b,!1);",
      "window.addEventListener(\"resize\",b,!1);b()\x7d;pagespeed.delayImagesInit=function()\x7b",
      "pagespeed.delayImages=new pagespeed.DelayImages\x7d;window.pagespeed=pagespeed;"]
  | .lazyImages => joined [
      "var pagespeed=window.pagespeed||\x7b\x7d;pagespeed.LazyloadImages=function(a)\x7b",
      "this.blankImageSrc_=a\x7d;pagespeed.LazyloadImages.prototype.isVisible_=function(a)\x7b",
      "var b=a.getBoundingClientRect(),c=window.innerHeight||document.documentElement.clientHeigh",
      "t;return b.top<=c&&b.bottom>=0\x7d;pagespeed.LazyloadImages.prototype.loadIfVisible=functi",
      "on(a)\x7bvar b=a.getAttribute(\"pagespeed_lazy_src\");b&&this.isVisible_(a)",
      "&&(a.onload=null,a.removeAttribute(\"pagespeed_lazy_src\"),a.setAttribute(\"src\",b))\x7d;",
      "pagespeed.LazyloadImages.prototype.overrideAttributeFunctions=function()\x7b",
      "var a=Element.prototype.getAttribute;Element.prototype.getAttribute=function(b)\x7b",
      "return\"src\"==b.toLowerCase()&&this.getAttribute(\"pagespeed_lazy_src\")?a.call(this,",
      "\"pagespeed_lazy_src\"):a.call(this,b)\x7d;this.loadAll_=!0\x7d;",
      "pagespeed.lazyLoadInit=function(a,b)\x7bvar c=new pagespeed.LazyloadImages(b);",
      "pagespeed.lazyLoadImages=c;var d=function()\x7bfor(var a=document.querySelectorAll(\"[page",
      "speed_lazy_src]\"),b=0;b<a.length;++b)c.loadIfVisible(a[b])\x7d;",
      "window.addEventListener(\"scroll\",d,!1);window.addEventListener(a?\"load\":\"DOMContentLo",
      "aded\",d,!1)\x7d;window.pagespeed=pagespeed;"]
  | .deferral => joined [
      "var pagespeed=window.pagespeed||\x7b\x7d;pagespeed.deferJsEnabled=!0;",
      "window.pagespeed=pagespeed;"]

end ImagePreview.Library
